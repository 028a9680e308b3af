import Scriptlet.Proofs.Cursor.Rules
import Scriptlet.Proofs.Parse.Blame
import Scriptlet.Proofs.Parse.Likeness
import Mathlib.Data.List.TakeWhile

/-! # Walks and answers

A walk of the cursor agrees with an answer of a rule if it comes to the same result, reports the
same faults and ends in front of the same tokens. The tokens in front of the cursor and those from
the end mark on have no part in it. -/

namespace Scriptlet

open Parse

/-! ## Where the tokens end -/

namespace Script

/-- The first end mark, or the one that stands behind every list. -/
def endOf (ts : List Token) : Token :=
  (ts.find? fun t => decide (t.kind = .endOfInput)).getD Cursor.endMark

theorem endOf_kind (ts : List Token) : (endOf ts).kind = .endOfInput := by
  unfold endOf
  cases found : ts.find? _ with
  | none => rfl
  | some t => simpa using List.find?_some found

theorem endOf_pos (ts : List Token) : (endOf ts).pos = last ts := by
  unfold endOf last
  cases ts.find? _ <;> rfl

theorem body_kind {ts : List Token} {t : Token} (mem : t ∈ body ts) : t.kind ≠ .endOfInput := by
  simpa using List.mem_takeWhile_imp mem

/-- Behind the tokens that are read stands the first end mark, or nothing. -/
theorem exists_behind (ts : List Token) :
    ∃ behind, ts = body ts ++ behind ∧ behind.head?.getD Cursor.endMark = endOf ts := by
  refine ⟨ts.dropWhile fun t => !decide (t.kind = .endOfInput), ?_, ?_⟩
  · exact List.takeWhile_append_dropWhile.symm
  · rw [endOf, List.find?_eq_head?_dropWhile_not]

theorem body_append {ts : List Token} (endless : ∀ t ∈ ts, t.kind ≠ .endOfInput)
    (behind : List Token) : body (ts ++ behind) = ts ++ body behind :=
  List.takeWhile_append_of_pos (by simpa using endless)

theorem last_append {ts : List Token} (endless : ∀ t ∈ ts, t.kind ≠ .endOfInput)
    (behind : List Token) : last (ts ++ behind) = last behind := by
  have absent : (ts.find? fun t => decide (t.kind = .endOfInput)) = none := by simpa using endless
  rw [last, List.find?_append, absent]
  rfl

end Script

open Script

/-! ## Cursors and the tokens behind them -/

namespace Cursor

/-- The cursor in front of `us`, which are the last of the tokens that are read; `pre` comes before
those. -/
def before (pre ts us : List Token) (reports : List Diagnostic) : Cursor :=
  ⟨pre.length + ((body ts).length - us.length), reports⟩

section

variable {pre ts us : List Token} {reports : List Diagnostic} {t : Token}

theorem peek_before (within : us <:+ body ts) :
    (before pre ts us reports).peek (pre ++ ts) = us.head?.getD (endOf ts) := by
  obtain ⟨front, split⟩ := within
  obtain ⟨behind, whole, first⟩ := exists_behind ts
  have index : (body ts).length - us.length = front.length := by
    rw [← split, List.length_append, Nat.add_sub_cancel]
  have tokens : pre ++ ts = (pre ++ front) ++ (us ++ behind) := by
    rw [List.append_assoc, ← List.append_assoc front, split, ← whole]
  rw [peek, before, index, tokens, List.getD_eq_getElem?_getD, ← List.length_append,
    List.getElem?_append_right (Nat.le_refl _), Nat.sub_self, ← List.head?_eq_getElem?]
  cases us with
  | nil => exact first
  | cons t us => rfl

theorem index_before (within : t :: us <:+ body ts) :
    (before pre ts us reports).index = (before pre ts (t :: us) reports).index + 1 := by
  have bound := within.length_le
  simp only [before, List.length_cons] at bound ⊢
  omega

theorem previous_before (within : t :: us <:+ body ts) :
    (before pre ts us reports).previous (pre ++ ts) = t := by
  have first : (before pre ts (t :: us) reports).peek (pre ++ ts) = t := peek_before within
  rw [previous, index_before within]
  exact first

theorem atEnd_before (within : us <:+ body ts) :
    (before pre ts us reports).atEnd (pre ++ ts) = us.isEmpty := by
  rw [atEnd, peek_before within]
  cases us with
  | nil => simp [endOf_kind]
  | cons t us => simp [body_kind (within.subset List.mem_cons_self)]

theorem check_before (kind : TokenKind) (within : us <:+ body ts) :
    (before pre ts us reports).check (pre ++ ts) kind = startsWith kind us := by
  rw [check, atEnd_before within, peek_before within]
  cases us <;> rfl

theorem advance_before (within : us <:+ body ts) :
    (before pre ts us reports).advance (pre ++ ts) = before pre ts us.tail reports := by
  rw [advance, atEnd_before within]
  cases us with
  | nil => rfl
  | cons t us =>
      rw [List.isEmpty_cons, if_neg Bool.false_ne_true, ← index_before within]
      rfl

theorem blame_before (cause : SyntaxCause) (within : us <:+ body ts) :
    (before pre ts us reports).blame (pre ++ ts) cause =
      Fault.locate (last ts) ⟨cause, us.head?.map Token.pos⟩ := by
  rw [blame, peek_before within]
  cases us with
  | nil => simp [Fault.locate, endOf_pos]
  | cons t us => rfl

end

end Cursor

/-! ## Agreement -/

variable {α β : Type} {m n : Nat}

/-- What an answer comes to if the tokens end at `last`. -/
def Parse.Parsed.outcome (last : Position) : Parsed α n → Except Diagnostic α
  | .ok value _ _ => .ok value
  | .error fault _ _ => .error (fault.locate last)

theorem Parse.Attempt.clean_andThen (p : Parsed α n)
    (g : α → (rest : List Token) → rest.length < n → Parsed β (rest.length + 1)) :
    (Attempt.clean p).andThen (fun value rest shorter => .clean (g value rest shorter)) =
      .clean (p.andThen g) := by
  cases p <;> rfl

namespace Tokens

open Cursor

/-- From the cursor in front of `us` the walk comes to the answer, whatever was reported before. -/
def Runs (pre ts : List Token) (x : Trial α) (us : List Token) (a : Attempt α n) : Prop :=
  ∀ reports, x.run.run (before pre ts us reports) =
    some (a.result.outcome (last ts),
      before pre ts a.result.rest (reports ++ a.log.map (Fault.locate (last ts))))

/-- The walk comes to the answer, and what the answer blames is in order. -/
structure Agrees (pre ts : List Token) (x : Trial α) (us : List Token) (a : Attempt α n) :
    Prop where
  orderly : a.Orderly us
  runs : Runs pre ts x us a

/-- Agreement with a rule that stops at its first fault. -/
abbrev Reads (pre ts : List Token) (x : Trial α) (us : List Token) (p : Parsed α n) : Prop :=
  Agrees pre ts x us (.clean p)

variable {pre ts us : List Token} {x : Trial α} {f : α → Trial β} {t : Token}

theorem Runs.bind {a : Attempt α n}
    {g : α → (rest : List Token) → rest.length < n → Attempt β (rest.length + 1)}
    (h : Runs pre ts x us a)
    (next : ∀ value rest shorter, a.result = .ok value rest shorter →
      Runs pre ts (f value) rest (g value rest shorter)) :
    Runs pre ts (x >>= f) us (a.andThen g) := by
  obtain ⟨log, result⟩ := a
  intro reports
  rw [ExceptT.run_bind, StateT.run_bind, h reports]
  cases result with
  | error => rfl
  | ok value rest shorter =>
      have second := next value rest shorter rfl (reports ++ log.map (Fault.locate (last ts)))
      simp only [Attempt.andThen]
      generalize g value rest shorter = answer at second
      obtain ⟨log', result'⟩ := answer
      cases result' with
      | ok => simpa [Parsed.outcome, Parsed.mono, Parsed.rest] using second
      | error => simpa [Parsed.outcome, Parsed.mono, Parsed.rest] using second

theorem Runs.succ {a : Attempt α n} (h : Runs pre ts x us a) : Runs pre ts x us a.succ := by
  obtain ⟨log, result⟩ := a
  cases result with
  | ok => exact h
  | error => exact h

theorem Runs.map {a : Attempt α n} (h : Runs pre ts x us a) (g : α → β) :
    Runs pre ts (x >>= fun value => pure (g value)) us (a.map g) := by
  obtain ⟨log, result⟩ := a
  intro reports
  rw [ExceptT.run_bind, StateT.run_bind, h reports]
  cases result <;> rfl

/-- A look at the cursor. -/
theorem Runs.get {a : Attempt α n} {f : Cursor → Trial α}
    (next : ∀ reports, Runs pre ts (f (before pre ts us reports)) us a) :
    Runs pre ts (get >>= f) us a :=
  fun reports => next reports reports

theorem runs_clean {p : Parsed α n}
    (h : ∀ reports, x.run.run (before pre ts us reports) =
      some (p.outcome (last ts), before pre ts p.rest reports)) :
    Runs pre ts x us (.clean p) := by
  intro reports
  rw [h, Attempt.clean, List.map_nil, List.append_nil]

namespace Agrees

variable {a : Attempt α n}

theorem rest_suffix (h : Agrees pre ts x us a) : a.result.rest <:+ us :=
  h.orderly.rest_suffix

theorem succ (h : Agrees pre ts x us a) : Agrees pre ts x us a.succ :=
  ⟨h.orderly.succ, h.runs.succ⟩

theorem map (h : Agrees pre ts x us a) (g : α → β) :
    Agrees pre ts (x >>= fun value => pure (g value)) us (a.map g) :=
  ⟨h.orderly.map g, h.runs.map g⟩

theorem bind {g : α → (rest : List Token) → rest.length < n → Attempt β (rest.length + 1)}
    (h : Agrees pre ts x us a)
    (next : ∀ value rest shorter, rest <:+ us →
      Agrees pre ts (f value) rest (g value rest shorter)) :
    Agrees pre ts (x >>= f) us (a.andThen g) := by
  have later : ∀ value rest shorter, a.result = .ok value rest shorter →
      Agrees pre ts (f value) rest (g value rest shorter) := by
    intro value rest shorter read
    have suffix := h.rest_suffix
    rw [read] at suffix
    exact next value rest shorter suffix
  exact ⟨h.orderly.andThen fun value rest shorter read => (later value rest shorter read).orderly,
    h.runs.bind fun value rest shorter read => (later value rest shorter read).runs⟩

theorem get {f : Cursor → Trial α} (next : ∀ reports,
    Agrees pre ts (f (before pre ts us reports)) us a) : Agrees pre ts (get >>= f) us a :=
  ⟨(next []).orderly, .get fun reports => (next reports).runs⟩

theorem pure (value : α) (us : List Token) : Reads pre ts (Pure.pure value) us (.done value us) :=
  ⟨.done value us, runs_clean fun _ => rfl⟩

/-- The next token, or the end, is blamed. -/
theorem blame (within : us <:+ body ts) (cause : SyntaxCause) (reports : List Diagnostic) :
    Reads pre ts (throw ((before pre ts us reports).blame (pre ++ ts) cause) : Trial α) us
      (.fail ⟨cause, us.head?.map Token.pos⟩ us) := by
  rw [blame_before cause within]
  refine ⟨?_, runs_clean fun _ => rfl⟩
  cases us with
  | nil => exact .fail_nil cause
  | cons t us => exact .fail cause us

end Agrees

namespace Reads

variable {p : Parsed α n}

theorem succ (h : Reads pre ts x us p) : Reads pre ts x us p.succ :=
  Agrees.succ h

theorem map (h : Reads pre ts x us p) (g : α → β) :
    Reads pre ts (x >>= fun value => Pure.pure (g value)) us (p.map g) :=
  Agrees.map h g

theorem bind {g : α → (rest : List Token) → rest.length < n → Parsed β (rest.length + 1)}
    (h : Reads pre ts x us p)
    (next : ∀ value rest shorter, rest <:+ us →
      Reads pre ts (f value) rest (g value rest shorter)) :
    Reads pre ts (x >>= f) us (p.andThen g) := by
  rw [Reads, ← Attempt.clean_andThen]
  exact Agrees.bind h next

end Reads

/-! ## Single tokens -/

section SingleTokens

variable {a : Attempt α n} {kind : TokenKind}

theorem run_advance (within : t :: us <:+ body ts) (reports : List Diagnostic) :
    (advance (pre ++ ts)).run.run (before pre ts (t :: us) reports) =
      some (.ok t, before pre ts us reports) := by
  have run : (advance (pre ++ ts)).run.run (before pre ts (t :: us) reports) =
      some (.ok (((before pre ts (t :: us) reports).advance (pre ++ ts)).previous (pre ++ ts)),
        (before pre ts (t :: us) reports).advance (pre ++ ts)) := rfl
  rw [run, advance_before within, List.tail_cons, previous_before within]

theorem Runs.advanced {f : Token → Trial α} (within : t :: us <:+ body ts)
    (next : Runs pre ts (f t) us a) : Runs pre ts (advance (pre ++ ts) >>= f) (t :: us) a := by
  intro reports
  rw [ExceptT.run_bind, StateT.run_bind, run_advance within]
  exact next reports

theorem Agrees.advanced {f : Token → Trial α} (within : t :: us <:+ body ts)
    (next : Agrees pre ts (f t) us a) :
    Agrees pre ts (advance (pre ++ ts) >>= f) (t :: us) a :=
  ⟨next.orderly.of_suffix (List.suffix_cons t us), next.runs.advanced within⟩

theorem Agrees.bind_accept {f : Bool → Trial α} (within : t :: us <:+ body ts)
    (same : t.kind = kind) (next : Agrees pre ts (f true) us a) :
    Agrees pre ts (accept (pre ++ ts) kind >>= f) (t :: us) a := by
  rw [accept, bind_assoc]
  refine .get fun reports => ?_
  have check : startsWith kind (t :: us) = true := decide_eq_true same
  rw [check_before kind within, if_pos check, bind_assoc]
  refine .advanced within ?_
  rwa [pure_bind]

theorem Agrees.bind_accept_false {f : Bool → Trial α} (within : us <:+ body ts)
    (other : startsWith kind us = false) (next : Agrees pre ts (f false) us a) :
    Agrees pre ts (accept (pre ++ ts) kind >>= f) us a := by
  rw [accept, bind_assoc]
  refine .get fun reports => ?_
  rwa [check_before kind within, other, if_neg Bool.false_ne_true, pure_bind]

theorem Agrees.accepted {yes no : Trial α} (within : t :: us <:+ body ts) (same : t.kind = kind)
    (next : Agrees pre ts yes us a) :
    Agrees pre ts (do if ← accept (pre ++ ts) kind then yes else no) (t :: us) a :=
  .bind_accept within same (by rwa [if_pos rfl])

theorem Agrees.refused {yes no : Trial α} (within : us <:+ body ts)
    (other : startsWith kind us = false) (next : Agrees pre ts no us a) :
    Agrees pre ts (do if ← accept (pre ++ ts) kind then yes else no) us a :=
  .bind_accept_false within other (by rwa [if_neg Bool.false_ne_true])

/-- The next token spells an operator of the table. -/
theorem Runs.operator {table : List (TokenKind × β)} {op : β} {f : Option β → Trial α}
    (next : Runs pre ts (f (some op)) us a) (within : t :: us <:+ body ts)
    (spelled : table.lookup t.kind = some op) :
    Runs pre ts (acceptOperator (pre ++ ts) table >>= f) (t :: us) a := by
  have found : (table.find? fun entry => startsWith entry.1 (t :: us)) = some (t.kind, op) := by
    obtain ⟨front, back, rfl, others⟩ := List.lookup_eq_some_iff.mp spelled
    refine List.find?_eq_some_iff_append.mpr ⟨decide_eq_true rfl, front, back, rfl, ?_⟩
    intro entry mem
    simpa [startsWith] using others entry mem
  rw [acceptOperator, bind_assoc]
  refine .get fun reports => ?_
  simp only [check_before _ within, found, bind_assoc, pure_bind]
  exact .advanced within next

theorem Agrees.operator {table : List (TokenKind × β)} {op : β} {f : Option β → Trial α}
    (within : t :: us <:+ body ts) (spelled : table.lookup t.kind = some op)
    (next : Agrees pre ts (f (some op)) us a) :
    Agrees pre ts (acceptOperator (pre ++ ts) table >>= f) (t :: us) a :=
  ⟨next.orderly.of_suffix (List.suffix_cons t us), next.runs.operator within spelled⟩

theorem Agrees.noOperator {table : List (TokenKind × β)} {f : Option β → Trial α}
    (within : us <:+ body ts) (absent : ∀ t ∈ us.head?, table.lookup t.kind = none)
    (next : Agrees pre ts (f none) us a) :
    Agrees pre ts (acceptOperator (pre ++ ts) table >>= f) us a := by
  have missing : (table.find? fun entry => startsWith entry.1 us) = none := by
    refine List.find?_eq_none.mpr fun entry mem => ?_
    cases us with
    | nil => simp [startsWith]
    | cons t us =>
        have other := List.lookup_eq_none_iff.mp (absent t rfl) entry mem
        simpa [startsWith] using other
  rw [acceptOperator, bind_assoc]
  refine .get fun reports => ?_
  simpa only [check_before _ within, missing, pure_bind] using next

/-- The expected token is taken, or the next one is blamed. -/
theorem reads_demand (what : Expectation) (within : us <:+ body ts) :
    Reads pre ts (demand (pre ++ ts) what) us (expect what us) := by
  rw [demand]
  refine .get fun reports => ?_
  rw [check_before what.kind within]
  cases us with
  | nil => exact .get fun reports => .blame within _ _
  | cons t us =>
      rw [expect]
      by_cases same : t.kind = what.kind
      · rw [startsWith, if_pos (decide_eq_true same), if_pos same]
        exact ⟨Blamed.nil (List.suffix_cons t us), runs_clean (run_advance within)⟩
      · rw [startsWith, if_neg (by simpa using same), if_neg same]
        exact .get fun reports => .blame within _ _

end SingleTokens

end Tokens

end Scriptlet
