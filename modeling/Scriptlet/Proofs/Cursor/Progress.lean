import Scriptlet.Proofs.Cursor.Statement
import Scriptlet.Proofs.Parse.Resumption
import Mathlib.Order.Bounds.Basic

/-! # How far the cursor goes

Every step of a loop moves the cursor, never back and never past the first end mark, so every walk
comes to an end. A walk over a whole token list reads what is read from the tokens in front of the
first end mark, and nothing behind it matters. -/

namespace Scriptlet

open Parse

namespace Script

/-- The index of the first end mark, or the length of the list if there is none. -/
def stop (ts : List Token) : Nat :=
  ts.findIdx fun t => decide (t.kind = .endOfInput)

theorem stop_eq (ts : List Token) : stop ts = (body ts).length := by
  unfold stop body
  induction ts with
  | nil => rfl
  | cons t ts ih => by_cases mark : t.kind = .endOfInput <;> simp [List.findIdx_cons, mark, ih]

end Script

namespace Tokens

open Cursor Script

variable {ts us : List Token} {n : Nat} {t : Token}

/-! ## Where reading is resumed -/

/-- The kinds of tokens in front of which reading is resumed. -/
def resumptionKinds : List TokenKind :=
  [.kwClass, .kwFunction, .kwVar, .kwFor, .kwIf, .kwWhile, .kwReturn]

theorem startsStatement_iff (t : Token) : startsStatement t ↔ t.kind ∈ resumptionKinds := by
  obtain ⟨kind, lexeme, pos⟩ := t
  cases kind <;> simp [startsStatement, resumptionKinds]

/-- At the index the tokens end, or a semicolon stands before it, or one of the keywords at it. -/
def Boundary (ts : List Token) (i : Nat) : Prop :=
  i = stop ts ∨ (∃ t, ts[i - 1]? = some t ∧ t.kind = .semicolon) ∨
    ∃ t, ts[i]? = some t ∧ t.kind ∈ resumptionKinds

/-- A fault noticed at `i` is got over at `k`: at the end the cursor stays, and elsewhere it goes to
the first boundary that is farther on. -/
def Resumes (ts : List Token) (i k : Nat) : Prop :=
  if i = stop ts then k = i else IsLeast {k | i < k ∧ Boundary ts k} k

theorem getElem?_of_suffix (within : t :: us <:+ body ts) :
    ts[(body ts).length - (t :: us).length]? = some t := by
  obtain ⟨front, split⟩ := within
  obtain ⟨behind, whole, -⟩ := exists_behind ts
  have index : (body ts).length - (t :: us).length = front.length := by
    rw [← split, List.length_append, Nat.add_sub_cancel]
  rw [index, whole, ← split, List.append_assoc, List.getElem?_append_right (Nat.le_refl _),
    Nat.sub_self]
  rfl

theorem boundary_iff (within : t :: us <:+ body ts) :
    Boundary ts ((body ts).length - us.length) ↔
      us = [] ∨ t.kind = .semicolon ∨ us.head?.any startsStatement := by
  have bound := within.length_le
  rw [List.length_cons] at bound
  have before : (body ts).length - us.length - 1 = (body ts).length - (t :: us).length := by
    rw [List.length_cons]
    omega
  have ends : (body ts).length - us.length = stop ts ↔ us = [] := by
    rw [stop_eq, ← List.length_eq_zero_iff]
    omega
  rw [Boundary, before, getElem?_of_suffix within, ends]
  cases us with
  | nil => simp
  | cons u us =>
      rw [getElem?_of_suffix (tail_within within)]
      simp [startsStatement_iff]

theorem isLeast_succ {i : Nat} (here : Boundary ts (i + 1)) :
    IsLeast {k | i < k ∧ Boundary ts k} (i + 1) :=
  ⟨⟨Nat.lt_succ_self i, here⟩, fun _ farther => farther.1⟩

theorem isLeast_of_succ {i k : Nat} (none_here : ¬ Boundary ts (i + 1))
    (h : IsLeast {k | i + 1 < k ∧ Boundary ts k} k) : IsLeast {k | i < k ∧ Boundary ts k} k := by
  refine ⟨⟨Nat.lt_of_succ_lt h.1.1, h.1.2⟩, fun j farther => h.2 ⟨?_, farther.2⟩⟩
  refine Nat.lt_of_le_of_ne farther.1 ?_
  rintro rfl
  exact none_here farther.2

/-- Tokens are passed over up to the first boundary. -/
theorem isLeast_synchronize (within : t :: us <:+ body ts) :
    IsLeast {k | (body ts).length - (t :: us).length < k ∧ Boundary ts k}
      ((body ts).length - (Parse.synchronize (t :: us)).length) := by
  induction us generalizing t with
  | nil =>
      have bound := within.length_le
      have next : (body ts).length = (body ts).length - [t].length + 1 :=
        (Nat.sub_add_cancel bound).symm
      have here : Boundary ts ((body ts).length - [t].length + 1) :=
        next ▸ (boundary_iff within).mpr (.inl rfl)
      have all : Parse.synchronize [t] = [] := by simp [Parse.synchronize]
      rw [all, List.length_nil, Nat.sub_zero]
      nth_rewrite 2 [next]
      exact isLeast_succ here
  | cons u us ih =>
      have bound := within.length_le
      have next : (body ts).length - (u :: us).length =
          (body ts).length - (t :: u :: us).length + 1 := by
        simp only [List.length_cons] at bound ⊢
        omega
      -- The place behind `t` is the next one that can be a boundary.
      have later := ih (tail_within within)
      have boundary := boundary_iff within
      rw [next] at later boundary
      rw [Parse.synchronize]
      split
      · rename_i stops
        rw [next]
        exact isLeast_succ (boundary.mpr (.inr (by simpa using stops)))
      · rename_i going
        exact isLeast_of_succ (fun here => going (by simpa using boundary.mp here)) later

theorem resumes_synchronize (within : us <:+ body ts) :
    Resumes ts ((body ts).length - us.length)
      ((body ts).length - (Parse.synchronize us).length) := by
  unfold Resumes
  cases us with
  | nil =>
      have ended : (body ts).length - ([] : List Token).length = stop ts := (stop_eq ts).symm
      rw [if_pos ended]
      rfl
  | cons t us =>
      have bound := within.length_le
      rw [List.length_cons] at bound
      rw [if_neg]
      · exact isLeast_synchronize within
      · rw [stop_eq, List.length_cons]
        omega

/-! ## Steps and loops -/

/-- From `c` a step of a loop comes to an end, not before `c` and not behind the end, and behind `c`
unless `c` is at the end. A statement that was tried in vain is reported and got over. -/
def Advances (ts : List Token) (x : Trial Stmt) (step : Walk (Option Stmt)) (c : Cursor) : Prop :=
  ∃ result tried kept left, x.run.run c = some (result, tried) ∧ step.run c = some (kept, left) ∧
    c.index ≤ tried.index ∧ tried.index ≤ stop ts ∧ c.index ≤ left.index ∧ left.index ≤ stop ts ∧
    (c.index < stop ts → c.index < left.index) ∧
    match result with
    | .ok s => kept = some s ∧ left = tried
    | .error d => kept = none ∧ left.reports = tried.reports ++ [d] ∧
        Resumes ts tried.index left.index

/-- From `c` a loop comes to an end, not before `c` and not behind the end. -/
def Ends (ts : List Token) (w : Walk (List Stmt)) (c : Cursor) : Prop :=
  ∃ items left, w.run c = some (items, left) ∧ c.index ≤ left.index ∧ left.index ≤ stop ts

theorem before_drop {c : Cursor} (inside : c.index ≤ stop ts) :
    before [] ts ((body ts).drop c.index) c.reports = c := by
  obtain ⟨index, reports⟩ := c
  rw [stop_eq] at inside
  simp only [before, List.length_nil, List.length_drop, Cursor.mk.injEq, and_true] at inside ⊢
  omega

theorem index_le_stop (us : List Token) (reports : List Diagnostic) :
    (before [] ts us reports).index ≤ stop ts := by
  simp only [before, List.length_nil, stop_eq]
  omega

theorem index_le_index {rest : List Token} (suffix : rest <:+ us)
    (reports reports' : List Diagnostic) :
    (before [] ts us reports).index ≤ (before [] ts rest reports').index := by
  have := suffix.length_le
  simp only [before]
  omega

theorem Agrees.advances {x : Trial Stmt} {a : Attempt Stmt us.length} (h : Agrees [] ts x us a)
    (within : us <:+ body ts) (reports : List Diagnostic) :
    Advances ts x (x.run >>= settle ts) (before [] ts us reports) := by
  have settled := run_settle h within reports
  refine ⟨_, _, _, _, h.runs reports, settled, index_le_index h.rest_suffix _ _,
    index_le_stop _ _, index_le_index h.orderly.settled.rest_suffix _ _, index_le_stop _ _, ?_, ?_⟩
  · intro going
    have bound := within.length_le
    cases us with
    | nil => simp [before, stop_eq] at going
    | cons t us =>
        have shorter := a.resumed_lt
        simp only [before, List.length_nil] at shorter bound ⊢
        omega
  · have left := h.rest_suffix.trans within
    obtain ⟨log, result⟩ := a
    cases result with
    | ok => exact ⟨rfl, rfl⟩
    | error fault rest bounded =>
        have resumes : Resumes ts ((body ts).length - rest.length) _ := resumes_synchronize left
        refine ⟨rfl, by simp [before, Attempt.faults], ?_⟩
        simpa only [before, Attempt.resumed, Parsed.rest, List.length_nil, Nat.zero_add] using resumes

theorem Gathers.ends {w : Walk (List Stmt)} {s : Sequence Stmt n} (h : Gathers [] ts w us s)
    (reports : List Diagnostic) : Ends ts w (before [] ts us reports) :=
  ⟨_, _, h.runs reports, index_le_index h.blamed.rest_suffix _ _, index_le_stop _ _⟩

/-! ## Whole texts -/

section Loops

variable (pre : List Token) (within : us <:+ body ts)
include within

theorem agrees_anyMember :
    Agrees pre ts (classMember (pre ++ ts)) us (Parse.classMember anyStatement us (length_le us)) :=
  agrees_classMember (fun us _ within => agrees_statement us within) us (length_le us) within

theorem gathers_statements :
    Gathers pre ts (statements (pre ++ ts)) us
      (Parse.sequence anyStatement closesBody us (length_le us)) :=
  gathers_loop (statements_eq _) stops_before (fun us _ within => agrees_statement us within) us
    (length_le us) within

theorem gathers_members :
    Gathers pre ts (members (pre ++ ts)) us
      (Parse.sequence (Parse.classMember anyStatement) closesBody us (length_le us)) :=
  gathers_loop (members_eq _) stops_before
    (agrees_classMember fun us _ within => agrees_statement us within) us (length_le us) within

theorem gathers_program : Gathers pre ts (program (pre ++ ts)) us (topLevel us) := by
  have stops : ∀ us reports, us <:+ body ts →
      (before pre ts us reports).atEnd (pre ++ ts) = us.head?.all fun _ => false := by
    intro us reports within
    rw [atEnd_before within]
    cases us <;> rfl
  exact gathers_loop (program_eq _) stops (fun us _ within => agrees_statement us within) us
    (length_le us) within

end Loops

/-- A walk over all tokens ends in front of the first end mark, with the program and the
diagnostics of the tokens. -/
theorem run_program (ts : List Token) :
    (program ts).run ⟨0, []⟩ =
      some ((ofTokens ts).program, ⟨stop ts, (ofTokens ts).diagnostics⟩) := by
  have run := (gathers_program [] (List.suffix_refl (body ts))).runs []
  have start : before [] ts (body ts) [] = ⟨0, []⟩ := by simp [before]
  have stopped (reports : List Diagnostic) : before [] ts [] reports = ⟨stop ts, reports⟩ := by
    simp [before, stop_eq]
  rwa [start, topLevel_rest, stopped, List.nil_append] at run

/-- From every cursor that is not behind the end, each step of a loop goes forward and each loop
comes to an end, and no walk leads behind the first end mark. The program is read up to there. -/
theorem advances_to_stop (ts : List Token) (c : Cursor) (inside : c.index ≤ stop ts) :
    (c.index ≤ (c.advance ts).index ∧ (c.advance ts).index ≤ stop ts) ∧
    Advances ts (statement ts) (declaration ts) c ∧
    Advances ts (classMember ts) (member ts) c ∧
    Ends ts (statements ts) c ∧ Ends ts (members ts) c ∧
    (∃ items left, (program ts).run c = some (items, left) ∧ left.index = stop ts) ∧
    (program ts).run ⟨0, []⟩ =
      some ((ofTokens ts).program, ⟨stop ts, (ofTokens ts).diagnostics⟩) := by
  have within : (body ts).drop c.index <:+ body ts := List.drop_suffix _ _
  rw [declaration, member]
  rw [← before_drop inside]
  refine ⟨?_, (agrees_statement _ within).advances within _,
    (agrees_anyMember [] within).advances within _, (gathers_statements [] within).ends _,
    (gathers_members [] within).ends _, ⟨_, _, (gathers_program [] within).runs _, ?_⟩,
    run_program ts⟩
  · have moved := @advance_before [] ts _ c.reports within
    rw [List.nil_append] at moved
    rw [moved]
    exact ⟨index_le_index (List.tail_suffix _) _ _, index_le_stop _ _⟩
  · rw [topLevel_rest]
    simp [before, stop_eq]

/-- No member of a class starts with `var`, and yet the cursor goes on in front of it. -/
theorem advances_in_class :
    let ts := (Token.scan "class A \x7b x var y").dropLast
    Advances ts (classMember ts) (member ts) ⟨4, []⟩ ∧ 4 < stop ts := by
  intro ts
  have inside : 4 < stop ts := by decide +kernel
  exact ⟨(advances_to_stop ts ⟨4, []⟩ (Nat.le_of_lt inside)).2.2.1, inside⟩

theorem script_eq (ts : List Token) : script ts = some (ofTokens ts) := by
  rw [script, run_program]
  rfl

/-- What is read depends on the tokens in front of the first end mark and on its place. -/
theorem script_congr {ts us : List Token} (same : body ts = body us)
    (place : Script.last ts = Script.last us) : script ts = script us := by
  have read (ts : List Token) : ofTokens ts = ⟨(topLevel (body ts)).items,
      (topLevel (body ts)).log.map (Fault.locate (Script.last ts))⟩ := rfl
  rw [script_eq, script_eq, read, read, same, place]

/-- Tokens behind an end mark have no part in what is read, and a list without one is read as if
an end mark at line 0, column 0 stood behind it. -/
theorem script_append_end {front behind : List Token} {last : Token}
    (endless : ∀ t ∈ front, t.kind ≠ .endOfInput) (ends : last.kind = .endOfInput) :
    script (front ++ last :: behind) = script (front ++ [last]) ∧
    (last.pos = ⟨0, 0⟩ → script front = script (front ++ [last])) ∧
    ∀ ts, script ts = some (ofTokens ts) := by
  have cut (us : List Token) : body (front ++ last :: us) = front := by
    rw [body_append endless, body, List.takeWhile_cons_of_neg (by simp [ends]), List.append_nil]
  have place (us : List Token) : Script.last (front ++ last :: us) = last.pos := by
    rw [last_append endless, Script.last, List.find?_cons_of_pos (by simp [ends])]
  have all : body front = front := body_of_endless endless
  have nowhere : Script.last front = ⟨0, 0⟩ := by
    rw [← List.append_nil front, last_append endless]
    rfl
  refine ⟨script_congr ?_ ?_, fun origin => script_congr ?_ ?_, script_eq⟩
  · rw [cut, cut]
  · rw [place, place]
  · rw [all, cut]
  · rw [nowhere, place, origin]

/-- The value of a return statement is not looked for behind the end. -/
theorem script_return_end :
    let front := (Token.scan "return").dropLast
    let last : Token := ⟨.endOfInput, "", ⟨0, 0⟩⟩
    let behind := Token.scan "1;"
    script (front ++ last :: behind) = script front := by
  intro front last behind
  have cut := @script_append_end front behind last (by decide +kernel) rfl
  exact cut.1.trans (cut.2.1 rfl).symm

end Tokens

end Scriptlet
