import Scriptlet.Proofs.Completeness.Statement
import Scriptlet.Proofs.Parse.Keywords
import Scriptlet.Proofs.Soundness.Statement
import Mathlib.Data.List.TakeWhile

/-! # Statements after a malformed one

When a statement is malformed, reading is resumed at the next keyword that starts a statement, but
never at the token where the fault was noticed. So the statements behind it are kept exactly if the
fault is noticed before their first keyword. Inside a block the closing brace is passed over, and
they become part of the block. -/

namespace Scriptlet

namespace Parse

open Grammar

variable {α : Type} {n : Nat} {ts tail : List Token}

/-- Whether a token neither ends a statement or a body nor starts one. -/
def isLoose (t : Token) : Bool :=
  match t.kind with
  | .semicolon | .leftBrace | .rightBrace | .endOfInput | .kwStatic => false
  | _ => !startsStatement t

theorem apart_of_loose {t : Token} (loose : isLoose t) :
    t.kind ≠ .semicolon ∧ startsStatement t = false := by
  unfold isLoose at loose
  split at loose
  case h_6 semicolon _ _ _ _ => exact ⟨semicolon, by simpa using loose⟩
  all_goals cases loose

/-- The rule for the statements of a sequence. -/
def anyStatement {n : Nat} : UpTo Attempt Stmt n := fun ts _ => statement ts

theorem counts_anyStatement (ts : List Token) (h : ts.length ≤ n) :
    (anyStatement ts h).Counts (keywordCount ts) Stmt.keywords :=
  counts_statement ts

/-! ## Where reading is resumed -/

/-- Loose tokens are passed over, up to a keyword that starts a statement. -/
theorem synchronize_append {front : List Token} (nonempty : front ≠ [])
    (apart : ∀ t ∈ front, t.kind ≠ .semicolon ∧ startsStatement t = false)
    (starts : tail.head?.any startsStatement) : synchronize (front ++ tail) = tail := by
  induction front with
  | nil => exact absurd rfl nonempty
  | cons t front ih =>
      have here := (apart t List.mem_cons_self).1
      cases front with
      | nil => simp [synchronize, starts]
      | cons next front =>
          have there := (apart next (by simp)).2
          have later := ih (by simp) fun u mem => apart u (List.mem_cons_of_mem _ mem)
          simpa [synchronize, here, there] using later

theorem sequence_of_error {rule : UpTo Attempt α n} {closes : Token → Bool} {t : Token}
    (going : closes t = false) {h : (t :: ts).length ≤ n} {log : List Fault} {fault : Fault}
    {rest : List Token} {bounded} (failed : rule (t :: ts) h = ⟨log, .error fault rest bounded⟩) :
    ∃ h', (sequence rule closes (t :: ts) h).items =
        (sequence rule closes (synchronize rest) h').items ∧
      (sequence rule closes (t :: ts) h).log =
        log ++ fault :: (sequence rule closes (synchronize rest) h').log ∧
      (sequence rule closes (t :: ts) h).rest =
        (sequence rule closes (synchronize rest) h').rest := by
  have h' := le_of_lt_of_le (synchronize_lt bounded) h
  refine ⟨h', ?_⟩
  rw [sequence]
  simp [going, failed]

theorem topLevel_of_ok {t : Token} {log : List Fault} {s : Stmt} {shorter}
    (read : statement (t :: ts) = ⟨log, .ok s [] shorter⟩) :
    (topLevel (t :: ts)).items = [s] ∧ (topLevel (t :: ts)).log = log := by
  rw [topLevel, sequence]
  simp [read, sequence]

/-- Statements that are read without a fault up to the end are read so inside a block as well. -/
theorem read?_sequence_closes {m : Nat} {closes : Token → Bool}
    (braces : ∀ t, closes t → closesBody t) :
    ∀ (ts : List Token) (h : ts.length ≤ m) (h' : ts.length ≤ n) {items : List Stmt},
      (sequence anyStatement (fun _ => false) ts h).read? = some (items, []) →
      (sequence anyStatement closes ts h').read? = some (items, [])
  | [], h, h', items => by
      rw [read?_sequence_nil, read?_sequence_nil]
      exact id
  | t :: ts, h, h', items => by
      intro read
      rw [read?_sequence_cons, if_neg Bool.false_ne_true] at read
      obtain ⟨item, mid, others, shorter, first, next, rfl⟩ := read
      have going : ¬ closes t := by
        intro closing
        obtain ⟨t', ht, opens⟩ := (statement_sound first).opens
        obtain rfl : t = t' := by simpa using ht
        simp [braces t closing] at opens
      rw [read?_sequence_cons, if_neg going]
      exact ⟨item, mid, others, shorter, first, read?_sequence_closes braces mid _ _ next, rfl⟩
termination_by ts => ts.length
decreasing_by exact shorter

theorem sequence_of_clean {closes : Token → Bool} (braces : ∀ t, closes t → closesBody t)
    (clean : (topLevel ts).log = []) {us : List Token} (same : us = ts) (h : us.length ≤ n) :
    let read := sequence anyStatement closes us h
    read.items = (topLevel ts).items ∧ read.log = [] ∧ read.rest = [] := by
  subst same
  have whole : (topLevel us).read? = some ((topLevel us).items, []) := by
    simp [Sequence.read?, clean, topLevel_rest]
  have read := read?_sequence_closes braces us _ h whole
  unfold Sequence.read? at read
  split at read
  · rename_i log
    obtain ⟨items, rest⟩ := Prod.mk.inj (Option.some.inj read)
    exact ⟨items, log, rest⟩
  · cases read

/-! ## The malformed statement -/

theorem read?_expressionStatement_of_loose {front : List Token}
    (loose : ∀ t ∈ front, isLoose t) : (expressionStatement front).read? = none := by
  cases read : (expressionStatement front).read? with
  | none => rfl
  | some answer =>
      obtain ⟨s, rest⟩ := answer
      simp only [expressionStatement, Parsed.read?_andThen, Parsed.read?_succ, Parsed.read?_map,
        read?_expect] at read
      obtain ⟨e, _, _, first, semicolon, ⟨rfl, kind⟩, -⟩ := read
      have suffix := (follows_expression barred_nil front).rest_suffix
      rw [Parsed.rest_of_read? first] at suffix
      have isLoose := loose semicolon (suffix.subset List.mem_cons_self)
      simp [Parse.isLoose, kind, Expectation.kind] at isLoose

theorem statement_of_loose {t : Token} (loose : isLoose t) :
    statement (t :: ts) = .clean (expressionStatement (t :: ts)) := by
  rw [statement]
  unfold statementFrom
  dsimp only
  split
  case h_10 => rfl
  all_goals
    rename_i kind
    simp [isLoose, startsStatement, kind] at loose

/-- Loose tokens are no statement. The fault is noticed at the same place whatever follows, as long
as no expression goes on there. -/
theorem statement_append {front : List Token} (nonempty : front ≠ [])
    (loose : ∀ t ∈ front, isLoose t) (bars : Barred tail)
    (apart : startsWith Expectation.expressionEnd.kind tail = false) :
    ∃ fault bounded, statement (front ++ tail) =
      ⟨[], .error fault ((expressionStatement front).rest ++ tail) bounded⟩ := by
  obtain ⟨fault, bounded, failed⟩ := (follows_expressionStatement bars apart front).eq_error
    (read?_expressionStatement_of_loose loose)
  refine ⟨fault, bounded, ?_⟩
  cases front with
  | nil => exact absurd rfl nonempty
  | cons t front =>
      exact (statement_of_loose (loose t List.mem_cons_self)).trans (congrArg Attempt.clean failed)

/-- A malformed statement leaves one fault, and reading is resumed behind the place where it was
noticed. -/
theorem sequence_append {front : List Token} (nonempty : front ≠ [])
    (loose : ∀ t ∈ front, isLoose t) (bars : Barred tail)
    (apart : startsWith Expectation.expressionEnd.kind tail = false) (closes : Token → Bool)
    (braces : ∀ t, closes t → closesBody t) (h : (front ++ tail).length ≤ n) :
    ∃ fault, ∃ h' : (synchronize ((expressionStatement front).rest ++ tail)).length ≤ n,
      let read := sequence anyStatement closes (front ++ tail) h
      let next := sequence anyStatement closes
        (synchronize ((expressionStatement front).rest ++ tail)) h'
      read.items = next.items ∧ read.log = fault :: next.log ∧ read.rest = next.rest := by
  obtain ⟨fault, bounded, failed⟩ := statement_append nonempty loose bars apart
  cases front with
  | nil => exact absurd rfl nonempty
  | cons t front =>
      have going : closes t = false := by
        rw [Bool.eq_false_iff]
        intro closing
        have brace : t.kind = .rightBrace := by simpa [closesBody] using braces t closing
        have first := loose t List.mem_cons_self
        simp [isLoose, brace] at first
      have rejected : anyStatement (t :: (front ++ tail)) h =
        ⟨[], .error fault ((expressionStatement (t :: front)).rest ++ tail) bounded⟩ := failed
      obtain ⟨h', resumed⟩ := sequence_of_error going rejected
      exact ⟨fault, h', resumed⟩

/-! ## The statements behind it -/

theorem barred_of_starts (starts : ts.head?.any startsStatement) :
    Barred ts ∧ startsWith .semicolon ts = false := by
  cases ts with
  | nil => cases starts
  | cons t ts =>
      obtain ⟨outside, other⟩ := not_inExpression_of_keyword (t := t) starts
      refine ⟨?_, by simp [startsWith, other]⟩
      intro t' ht
      obtain rfl : t = t' := by simpa using ht
      exact outside

theorem items_ne_nil (starts : ts.head?.any startsStatement) (clean : (topLevel ts).log = []) :
    (topLevel ts).items ≠ [] := by
  intro empty
  have counts := (counts_topLevel ts).2 clean
  rw [empty, topLevel_rest] at counts
  cases ts with
  | nil => cases starts
  | cons t ts =>
      rw [keywordCount_of_keyword starts] at counts
      cases counts

section Behind

variable {front : List Token} (nonempty : front ≠ []) (loose : ∀ t ∈ front, isLoose t)
  (starts : ts.head?.any startsStatement) (clean : (topLevel ts).log = [])
include nonempty loose starts clean

/-- The statements behind a malformed one are all read exactly if the fault is noticed before
them. -/
theorem items_append_iff :
    (topLevel (front ++ ts)).log ≠ [] ∧
      ((topLevel (front ++ ts)).items = (topLevel ts).items ↔
        (expressionStatement front).rest ≠ []) := by
  obtain ⟨bars, apart⟩ := barred_of_starts starts
  obtain ⟨fault, h', items, log, -⟩ := sequence_append nonempty loose bars apart (fun _ => false)
    (by simp) (length_le (front ++ ts))
  have items : (topLevel (front ++ ts)).items = _ := items
  have log : (topLevel (front ++ ts)).log = _ := log
  refine ⟨by simp [log], ?_, ?_⟩
  · -- The first keyword is passed over, so the statements that are read have too few of them.
    intro same noticed
    have passed : keywordCount (synchronize ((expressionStatement front).rest ++ ts)) + 1 ≤
        keywordCount ts := by
      rw [noticed, List.nil_append]
      cases ts with
      | nil => cases starts
      | cons t ts =>
          have later := keywordCount_synchronize t ts
          have first : keywordCount (t :: ts) = keywordCount ts + 1 := keywordCount_of_keyword starts
          omega
    have lost := (counts_sequence counts_anyStatement (fun _ => false) _ h').1
    have kept := (counts_topLevel ts).2 clean
    rw [← same, items, topLevel_rest] at kept
    have none_left : keywordCount [] = 0 := rfl
    omega
  · intro within
    have suffix := (follows_expressionStatement barred_nil rfl front).rest_suffix
    have resumed : synchronize ((expressionStatement front).rest ++ ts) = ts := by
      refine synchronize_append within (fun t mem => ?_) starts
      exact apart_of_loose (loose t (suffix.subset mem))
    exact items.trans (sequence_of_clean (by simp) clean resumed h').1

/-- A block that holds nothing but a malformed statement takes in what comes after it. -/
theorem statement_block {opening closing : Token} (opens : opening.kind = .leftBrace)
    (closes : closing.kind = .rightBrace) :
    ∃ fault shorter, statement (opening :: (front ++ closing :: ts)) =
      ⟨[fault], .ok (.block opening.pos (topLevel ts).items) [] shorter⟩ := by
  have bars : Barred (closing :: ts) := by
    intro t ht
    obtain rfl : closing = t := by simpa using ht
    rw [closes]
    rfl
  have apart : startsWith .semicolon (closing :: ts) = false := by simp [startsWith, closes]
  obtain ⟨fault, h', items, log, rest⟩ := sequence_append nonempty loose bars apart closesBody
    (fun _ => id) (length_le (front ++ closing :: ts))
  have resumed : synchronize ((expressionStatement front).rest ++ closing :: ts) = ts := by
    have suffix := (follows_expressionStatement barred_nil rfl front).rest_suffix
    rw [List.append_cons]
    refine synchronize_append (by simp) (fun t mem => ?_) starts
    rcases List.mem_append.mp mem with within | brace
    · exact apart_of_loose (loose t (suffix.subset within))
    · obtain rfl := List.mem_singleton.mp brace
      simp [startsStatement, closes]
  obtain ⟨items', log', rest'⟩ := sequence_of_clean (fun _ => id) clean resumed h'
  rw [items'] at items
  rw [log'] at log
  rw [rest'] at rest
  have block : statement (opening :: (front ++ closing :: ts)) =
      (blockBody anyStatement (front ++ closing :: ts) (length_le _)).map
        fun body => .block opening.pos body := by
    rw [statement]
    simp only [statementFrom, opens]
    rfl
  rw [block, blockBody]
  generalize sequence anyStatement closesBody (front ++ closing :: ts) _ = read at *
  obtain ⟨_, _, _, _⟩ := read
  subst items log rest
  exact ⟨fault, _, rfl⟩

end Behind

end Parse

/-! ## Scripts -/

namespace Script

open Parse

theorem body_of_endless {ts : List Token} (endless : ∀ t ∈ ts, t.kind ≠ .endOfInput) :
    body ts = ts :=
  List.takeWhile_eq_self_iff.mpr (by simpa using endless)

theorem body_append_end {ts : List Token} {last : Token}
    (endless : ∀ t ∈ ts, t.kind ≠ .endOfInput) (ends : last.kind = .endOfInput) :
    body (ts ++ [last]) = ts := by
  rw [body, List.takeWhile_append_of_pos (by simpa using endless)]
  simp [ends]

theorem ofTokens_of_body {ts us : List Token} (h : body ts = us) :
    (ofTokens ts).program = (topLevel us).items ∧
      (ofTokens ts).diagnostics.length = (topLevel us).log.length := by
  subst h
  exact ⟨rfl, List.length_map _⟩

/-- The statements behind a malformed one, which starts with no keyword and holds no semicolon or
brace, are all kept exactly if the fault is noticed before they begin. If the malformed statement
stands in a block of its own, they always become statements of that block. -/
theorem program_behind_malformed {malformed behind : List Token} {opening closing last : Token}
    (nonempty : malformed ≠ []) (loose : ∀ t ∈ malformed, isLoose t)
    (endless : ∀ t ∈ behind, t.kind ≠ .endOfInput) (starts : behind.head?.any startsStatement)
    (clean : (ofTokens behind).diagnostics = []) (opens : opening.kind = .leftBrace)
    (closes : closing.kind = .rightBrace) (ends : last.kind = .endOfInput) :
    let program := (ofTokens behind).program
    let alone := ofTokens (malformed ++ behind ++ [last])
    let enclosed := ofTokens (opening :: (malformed ++ closing :: behind) ++ [last])
    (alone.diagnostics ≠ [] ∧
      (alone.program = program ↔ (expressionStatement malformed).rest ≠ [])) ∧
    (enclosed.diagnostics.length = 1 ∧ enclosed.program = [.block opening.pos program] ∧
      ∀ pos, enclosed.program ≠ .block pos [] :: program) := by
  have outside : ∀ t ∈ malformed, t.kind ≠ .endOfInput := by
    intro t mem kind
    have isLoose := loose t mem
    simp [Parse.isLoose, kind] at isLoose
  obtain ⟨program, reported⟩ := ofTokens_of_body (body_of_endless endless)
  have log : (topLevel behind).log = [] := by
    rw [← List.length_eq_zero_iff, ← reported, clean]
    rfl
  refine ⟨?_, ?_⟩
  · have inside : ∀ t ∈ malformed ++ behind, t.kind ≠ .endOfInput :=
      List.forall_mem_append.mpr ⟨outside, endless⟩
    obtain ⟨items, length⟩ := ofTokens_of_body (body_append_end inside ends)
    obtain ⟨faults, kept⟩ := items_append_iff nonempty loose starts log
    rw [items, program]
    refine ⟨?_, kept⟩
    rwa [← List.length_pos_iff, length, List.length_pos_iff]
  · have inside : ∀ t ∈ opening :: (malformed ++ closing :: behind), t.kind ≠ .endOfInput := by
      simp only [List.forall_mem_cons, List.forall_mem_append]
      exact ⟨by simp [opens], outside, by simp [closes], endless⟩
    obtain ⟨items, length⟩ := ofTokens_of_body (body_append_end inside ends)
    obtain ⟨fault, shorter, block⟩ := statement_block nonempty loose starts log opens closes
    obtain ⟨whole, faults⟩ := topLevel_of_ok block
    rw [items, whole, length, faults, program]
    refine ⟨rfl, rfl, fun pos same => ?_⟩
    injection same with first _
    injection first with _ empty
    exact items_ne_nil starts log empty

/-- A name in front of a declaration takes it away, and two names do not. -/
theorem program_behind_names :
    let name : Token := ⟨.identifier, "x", ⟨1, 1⟩⟩
    let behind := (Token.scan "var y = 1;").dropLast
    let opening : Token := ⟨.leftBrace, "\x7b", ⟨1, 1⟩⟩
    let closing : Token := ⟨.rightBrace, "\x7d", ⟨1, 3⟩⟩
    let last : Token := ⟨.endOfInput, "", ⟨2, 1⟩⟩
    (ofTokens ([name] ++ behind ++ [last])).program ≠ (ofTokens behind).program ∧
      (ofTokens ([name, name] ++ behind ++ [last])).program = (ofTokens behind).program ∧
      (ofTokens (opening :: ([name] ++ closing :: behind) ++ [last])).program =
        [.block ⟨1, 1⟩ (ofTokens behind).program] := by
  intro name behind opening closing last
  have clean : (ofTokens behind).diagnostics = [] := by decide +kernel
  have one := @program_behind_malformed [name] behind opening closing last (by decide) (by decide)
    (by decide +kernel) (by decide +kernel) clean rfl rfl rfl
  have two := @program_behind_malformed [name, name] behind opening closing last (by decide)
    (by decide) (by decide +kernel) (by decide +kernel) clean rfl rfl rfl
  refine ⟨fun same => ?_, two.1.2.mpr ?_, one.2.2.1⟩
  · exact one.1.2.mp same (by decide +kernel)
  · decide +kernel

end Script

end Scriptlet
