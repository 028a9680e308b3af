import Scriptlet.Proofs.Cursor.Progress
import Scriptlet.Proofs.Parse.Semicolons

/-! # A malformed statement is lost up to its semicolon

A statement that is begun in front of plain tokens and a semicolon ends with the semicolon or is
given up there, with one report. The loops go on behind the semicolon as if nothing had been in
front of it. -/

namespace Scriptlet.Tokens

open Parse Cursor Script

variable {pre ts us : List Token} {n : Nat}

/-! ## Loops -/

/-- What a loop comes to if `kept` is there already and the rest, read from `c` on as if it stood
alone, comes to `others`. -/
def joined (kept : Option Stmt) (c : Cursor) (others : List Stmt × Cursor) : List Stmt × Cursor :=
  (kept.toList ++ others.1, ⟨c.index + others.2.index, c.reports ++ others.2.reports⟩)

theorem before_body (whole : body ts = us) (reports : List Diagnostic) :
    before pre ts us reports = ⟨pre.length, reports⟩ := by
  simp [before, whole]

/-- The tokens in front of the cursor do not matter. -/
theorem Gathers.run_eq {w alone : Walk (List Stmt)} {s : Sequence Stmt n}
    (h : Gathers pre ts w (body ts) s) (h' : Gathers [] ts alone (body ts) s) (c : Cursor)
    (index : c.index = pre.length) : w.run c = (alone.run ⟨0, []⟩).map (joined none c) := by
  obtain ⟨_, reports⟩ := c
  subst index
  have here := h.runs reports
  have there := h'.runs []
  rw [before_body rfl] at here
  rw [before_body rfl, List.nil_append, List.length_nil] at there
  rw [here, there]
  simp [joined, before]

/-- A loop that has made a step goes on as if nothing had been in front of the tokens left. -/
theorem run_loop_of_step {w : Walk (List Stmt)} {x : Trial Stmt} {stops : Cursor → Bool}
    {c left : Cursor} {kept : Option Stmt} {others : Option (List Stmt × Cursor)}
    (rounds : w = round stops (x.run >>= settle (pre ++ ts)) w) (going : stops c = false)
    (step : (x.run >>= settle (pre ++ ts)).run c = some (kept, left))
    (rest : w.run left = others.map (joined none left)) :
    w.run c = others.map (joined kept left) := by
  rw [run_loop rounds, going, if_neg Bool.false_ne_true, step, Option.bind_some, rest,
    Option.map_map]
  rfl

/-! ## Steps -/

/-- A step from `c` to `left` over the tokens of `span`: they are a statement and nothing is
reported, or there is none and one of them is reported. -/
def Settles (phrase : List Token → Stmt → List Token → Prop) (span : List Token) (c : Cursor)
    (kept : Option Stmt) (left : Cursor) : Prop :=
  left.index = c.index + span.length ∧
    ((∃ s, kept = some s ∧ phrase span s [] ∧ left.reports = c.reports) ∨
      kept = none ∧ ∃ d, left.reports = c.reports ++ [d] ∧ ∃ t ∈ span, d.pos = t.pos)

variable {front behind : List Token} {semi : Token}

/-- A loop whose first step is settled goes on as it does on the tokens behind the semicolon. -/
theorem Settles.run_loop {w : List Token → Walk (List Stmt)} {x : Trial Stmt}
    {stops : Cursor → Bool} {s : Sequence Stmt n} {c left : Cursor} {kept : Option Stmt}
    {phrase : List Token → Stmt → List Token → Prop}
    (settles : Settles phrase (front ++ [semi]) c kept left) (index : c.index = pre.length)
    (step : (x.run >>= settle (pre ++ (front ++ semi :: behind))).run c = some (kept, left))
    (rounds : w (pre ++ (front ++ semi :: behind)) = round stops
      (x.run >>= settle (pre ++ (front ++ semi :: behind))) (w (pre ++ (front ++ semi :: behind))))
    (going : stops c = false)
    (gathers : ∀ pre, Gathers pre behind (w (pre ++ behind)) (body behind) s) :
    (w (pre ++ (front ++ semi :: behind))).run c =
      ((w behind).run ⟨0, []⟩).map (joined kept left) := by
  refine run_loop_of_step rounds going step ?_
  have tokens : pre ++ (front ++ semi :: behind) = (pre ++ (front ++ [semi])) ++ behind := by simp
  have place : left.index = (pre ++ (front ++ [semi])).length := by
    rw [settles.1, index, ← List.length_append]
  rw [tokens]
  exact (gathers _).run_eq (gathers []) left place

section Span

variable (kind : semi.kind = .semicolon)
  (opening : ∀ t ∈ front.head?, t.kind = .kwVar ∨ isPlain t) (plain : ∀ t ∈ front.tail, isPlain t)
include kind opening plain

theorem apart_of_opening :
    (∀ t ∈ front, t.kind ≠ .semicolon) ∧
      ∀ t ∈ front ++ [semi], t.kind ≠ .rightBrace ∧ t.kind ≠ .endOfInput := by
  have apart : ∀ t ∈ front, t.kind ≠ .semicolon ∧ t.kind ≠ .rightBrace ∧ t.kind ≠ .endOfInput := by
    cases front with
    | nil => simp
    | cons t front =>
        refine List.forall_mem_cons.mpr ⟨?_, fun u mem => ?_⟩
        · rcases opening t rfl with keyword | first
          · simp [keyword]
          · obtain ⟨semicolon, brace, mark, -⟩ := apart_of_plain first
            exact ⟨semicolon, brace, mark⟩
        · obtain ⟨semicolon, brace, mark, -⟩ := apart_of_plain (plain u mem)
          exact ⟨semicolon, brace, mark⟩
  refine ⟨fun t mem => (apart t mem).1, List.forall_mem_append.mpr ⟨?_, by simp [kind]⟩⟩
  exact fun t mem => (apart t mem).2

theorem body_span (behind : List Token) :
    body (front ++ semi :: behind) = front ++ semi :: body behind := by
  have endless := fun t mem => ((apart_of_opening kind opening plain).2 t mem).2
  rw [List.append_cons, body_append endless, ← List.append_cons]

/-- A rule that ends at the semicolon is settled there. -/
theorem exists_settles {x : Trial Stmt} {phrase : List Token → Stmt → List Token → Prop}
    {p : (behind : List Token) → Parsed Stmt (front ++ semi :: behind).length}
    (ends : EndsAt front semi p)
    (agrees : Agrees pre (front ++ semi :: behind) x (front ++ semi :: body behind)
      (.clean (p (body behind))))
    (sound : ∀ s, (p []).read? = some (s, []) → phrase (front ++ [semi]) s [])
    (reports : List Diagnostic) :
    ∃ kept left, (x.run >>= settle (pre ++ (front ++ semi :: behind))).run ⟨pre.length, reports⟩ =
        some (kept, left) ∧
      Settles phrase (front ++ [semi]) ⟨pre.length, reports⟩ kept left := by
  have whole := body_span kind opening plain behind
  have apart := (apart_of_opening kind opening plain).1
  have inner : ∀ t ∈ front.tail, startsStatement t = false :=
    fun t mem => (apart_of_plain (plain t mem)).2.2.2
  obtain ⟨resumed, settles⟩ := ends.settles kind apart inner agrees.orderly
  have run := run_settle agrees (whole ▸ List.suffix_rfl) reports
  rw [before_body whole, resumed] at run
  refine ⟨_, _, run, ?_, ?_⟩
  · simp only [before, whole, List.length_append, List.length_cons, List.length_nil]
    omega
  · rcases settles with ⟨s, kept, faults, read⟩ | ⟨kept, fault, faults, t, mem, pos⟩
    · exact .inl ⟨s, kept, sound s read, by simp [before, faults]⟩
    · refine .inr ⟨kept, fault.locate (last (front ++ semi :: behind)), ?_, t, mem, ?_⟩
      · simp [before, faults]
      · simp [Fault.locate, pos]

theorem exists_settles_statement (pre behind : List Token) (reports : List Diagnostic) :
    ∃ kept left, ((statement (pre ++ (front ++ semi :: behind))).run >>=
        settle (pre ++ (front ++ semi :: behind))).run ⟨pre.length, reports⟩ = some (kept, left) ∧
      Settles Grammar.Statement (front ++ [semi]) ⟨pre.length, reports⟩ kept left := by
  obtain ⟨p, ends, read⟩ := exists_endsAt_statement kind opening plain
  have agrees := @agrees_statement pre (front ++ semi :: behind) (front ++ semi :: body behind)
    (body_span kind opening plain behind ▸ List.suffix_rfl)
  rw [read] at agrees
  refine exists_settles kind opening plain ends agrees (fun s alone => ?_) reports
  have whole : (Parse.statement (front ++ [semi])).read? = some (s, []) := by
    rw [read, Attempt.read?_clean, alone]
  exact statement_sound whole

theorem exists_settles_classMember (first : ∀ t ∈ front.head?, isPlain t)
    (pre behind : List Token) (reports : List Diagnostic) :
    ∃ kept left, ((classMember (pre ++ (front ++ semi :: behind))).run >>=
        settle (pre ++ (front ++ semi :: behind))).run ⟨pre.length, reports⟩ = some (kept, left) ∧
      Settles Grammar.Member (front ++ [semi]) ⟨pre.length, reports⟩ kept left := by
  have each : ∀ t ∈ front, isPlain t := by
    cases front with
    | nil => simp
    | cons t front => exact List.forall_mem_cons.mpr ⟨first t rfl, plain⟩
  obtain ⟨p, ends, read⟩ := exists_endsAt_classMember kind each
  have agrees := @agrees_anyMember (front ++ semi :: behind) (front ++ semi :: body behind) pre
    (body_span kind opening plain behind ▸ List.suffix_rfl)
  rw [read] at agrees
  refine exists_settles kind opening plain ends agrees (fun s alone => ?_) reports
  have whole : (Parse.classMember anyStatement (front ++ [semi]) (length_le _)).read? =
      some (s, []) := by
    rw [read, Attempt.read?_clean, alone]
  exact classMember_sound (fun _ _ _ _ => statement_sound) _ whole

/-- The loops make a step in front of the tokens. -/
theorem going_span (pre behind : List Token) (reports : List Diagnostic) :
    ((Cursor.mk pre.length reports).check (pre ++ (front ++ semi :: behind)) .rightBrace ||
      (Cursor.mk pre.length reports).atEnd (pre ++ (front ++ semi :: behind))) = false := by
  have whole := body_span kind opening plain behind
  have apart := (apart_of_opening kind opening plain).2
  rw [← before_body whole, stops_before _ _ (whole ▸ List.suffix_rfl)]
  cases front with
  | nil => exact decide_eq_false (apart semi (by simp)).1
  | cons t front => exact decide_eq_false (apart t (by simp)).1

end Span

/-- The tokens up to the semicolon are a statement, or one of them is reported; the loops go on
behind the semicolon as they do on the tokens that stand there alone. The same holds of a member of
a class. -/
theorem settles_at_semicolon (pre behind : List Token) (reports : List Diagnostic)
    (kind : semi.kind = .semicolon) (opening : ∀ t ∈ front.head?, t.kind = .kwVar ∨ isPlain t)
    (plain : ∀ t ∈ front.tail, isPlain t) :
    let ts := pre ++ (front ++ semi :: behind)
    let c : Cursor := ⟨pre.length, reports⟩
    (∃ kept left, (declaration ts).run c = some (kept, left) ∧
      Settles Grammar.Statement (front ++ [semi]) c kept left ∧
      (program ts).run c = some (joined kept left
        ((ofTokens behind).program, ⟨stop behind, (ofTokens behind).diagnostics⟩)) ∧
      (statements ts).run c = ((statements behind).run ⟨0, []⟩).map (joined kept left)) ∧
    ((∀ t ∈ front.head?, isPlain t) → ∃ kept left, (member ts).run c = some (kept, left) ∧
      Settles Grammar.Member (front ++ [semi]) c kept left ∧
      (members ts).run c = ((members behind).run ⟨0, []⟩).map (joined kept left)) := by
  intro ts c
  have going := going_span kind opening plain pre behind reports
  constructor
  · obtain ⟨kept, left, step, settles⟩ :=
      exists_settles_statement kind opening plain pre behind reports
    refine ⟨kept, left, by rw [declaration]; exact step, settles, ?_, ?_⟩
    · have rest := settles.run_loop rfl step (program_eq _) (Bool.or_eq_false_iff.mp going).2
        fun pre => gathers_program pre List.suffix_rfl
      rw [run_program behind] at rest
      exact rest
    · exact settles.run_loop rfl step (statements_eq _) going fun pre =>
        gathers_statements pre List.suffix_rfl
  · intro first
    obtain ⟨kept, left, step, settles⟩ :=
      exists_settles_classMember kind opening plain first pre behind reports
    refine ⟨kept, left, by rw [member]; exact step, settles, ?_⟩
    exact settles.run_loop rfl step (members_eq _) going fun pre =>
      gathers_members pre List.suffix_rfl

/-- The equals sign that is blamed lies behind the cursor when the fault is noticed. -/
theorem settles_at_semicolon_target :
    let pre := (Token.scan "class A \x7b").dropLast
    let front := (Token.scan "x = 1 = 2").dropLast
    let semi : Token := ⟨.semicolon, ";", ⟨1, 19⟩⟩
    let behind := Token.scan "y; \x7d"
    let ts := pre ++ (front ++ semi :: behind)
    ∃ kept left, (member ts).run ⟨pre.length, []⟩ = some (kept, left) ∧
      left.index = pre.length + 6 ∧
      (members ts).run ⟨pre.length, []⟩ =
        ((members behind).run ⟨0, []⟩).map (joined kept left) := by
  intro pre front semi behind ts
  obtain ⟨kept, left, step, settles, rest⟩ := (@settles_at_semicolon front semi pre behind [] rfl
    (by decide +kernel) (by decide +kernel)).2 (by decide +kernel)
  have length : (front ++ [semi]).length = 6 := by decide +kernel
  exact ⟨kept, left, step, length ▸ settles.1, rest⟩

end Scriptlet.Tokens
