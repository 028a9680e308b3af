import Scriptlet.Proofs.Eval.Likeness
import Scriptlet.Proofs.Parse.Likeness

/-! # Where the trees of a running script come from

Everything that is read from tokens is well-formed and lies at their places, and so is everything
that is run later: the bodies of functions wait in the store unchanged. Both follow from likenesses
of a script with itself. -/

namespace Scriptlet

variable {places : Position → Prop}

/-- The bodies of all functions are well-formed and lie at the given places. -/
def Machine.Lies (places : Position → Prop) (m : Machine) : Prop :=
  (Likeness.exact places).Machines m m

namespace Likeness

theorem stmts_exact {program : Program} (lies : ∀ s ∈ program, s.Lies places) :
    List.Forall₂ (exact places).stmt program program :=
  forall₂_and_eq.mpr ⟨lies, rfl⟩

theorem function_eq_of_exact {f f' : FunctionObject} (h : (exact places).Function f f') :
    f = f' := by
  obtain ⟨bodies⟩ := h
  cases bodies with
  | none => rfl
  | some stmts => rw [(forall₂_and_eq.mp stmts).2]

theorem machines_eq_of_exact {m m' : Machine} (h : (exact places).Machines m m') : m = m' := by
  obtain ⟨@⟨scopes, functions, functions', classes, instances, like⟩⟩ := h
  have same : functions.toList = functions'.toList :=
    List.forall₂_eq_eq_eq ▸ like.imp fun _ _ => function_eq_of_exact
  rw [Array.toList_inj.mp same]

theorem lines_of_exact {line line' : Nat} (h : (exact places).Lines line line') :
    (∃ p, places p ∧ p.line = line) ∧ line = line' := by
  obtain @⟨p, q, place⟩ := h
  obtain ⟨place, rfl⟩ := place
  exact ⟨⟨p, place, rfl⟩, rfl⟩

theorem outcomes_eq_of_exact {α : Type} {r r' : EStateM.Result Halt Machine α}
    (h : (exact places).Outcomes r r') : r = r' := by
  cases h with
  | ok machines => rw [machines_eq_of_exact machines]
  | failed lines _ machines =>
      rw [machines_eq_of_exact machines, (lines_of_exact lines).2]
  | exhausted machines => rw [machines_eq_of_exact machines]

end Likeness

open Likeness

/-! ## Reading -/

namespace Script

variable {ts : List Token} (lies : ∀ t ∈ ts, places t.pos)
include lies

theorem tokens_exact : (exact places).Tokens ts ts :=
  List.forall₂_same.mpr fun t mem => ⟨lies t mem, rfl⟩

/-- What is read is well-formed and lies where the tokens do, with or without faults. -/
theorem program_lies : ∀ s ∈ (ofTokens ts).program, s.Lies places :=
  (forall₂_and_eq.mp (alike_program (tokens_exact lies))).1

theorem diagnostics_lie (ends : ∃ t ∈ ts, t.kind = .endOfInput) :
    ∀ d ∈ (ofTokens ts).diagnostics, places d.pos := by
  intro d mem
  have like := alike_diagnostics (tokens_exact lies) (.inr ends)
  obtain ⟨place⟩ := List.forall₂_same.mp like d mem
  exact place.1

end Script

/-! ## Running -/

/-- The interpreter that a computation leaves behind has bodies at the given places only. An error
is raised at one of them, and never because a target is invalid. -/
def Eval.LeavesLying {α : Type} (places : Position → Prop) : EStateM.Result Halt Machine α → Prop
  | .ok _ m | .error .exhausted m => m.Lies places
  | .error (.failed e) m =>
      m.Lies places ∧ (∃ p, places p ∧ p.line = e.line) ∧ e.cause ≠ .invalidTarget

theorem Machine.lies_of_exact {m m' : Machine} (h : (exact places).Machines m m') :
    m.Lies places := by
  obtain rfl := machines_eq_of_exact h
  exact h

theorem Likeness.Outcomes.leavesLying {α : Type} {r r' : EStateM.Result Halt Machine α}
    (h : (exact places).Outcomes r r') : Eval.LeavesLying places r := by
  cases h with
  | ok machines => exact Machine.lies_of_exact machines
  | failed lines shape machines =>
      exact ⟨Machine.lies_of_exact machines, (lines_of_exact lines).1, shape⟩
  | exhausted machines => exact Machine.lies_of_exact machines

theorem Machine.lies_fresh (console : Console) : (fresh console).Lies places :=
  Machines.fresh console

namespace Session

variable {m : Machine} {program : Program}

theorem leavesLying_executeAll (machine : m.Lies places) (lies : ∀ s ∈ program, s.Lies places)
    (fuel : Nat) : Eval.LeavesLying places (executeAll fuel program m) :=
  (alike_executeAll (stmts_exact lies) fuel m m machine).leavesLying

end Session

end Scriptlet
