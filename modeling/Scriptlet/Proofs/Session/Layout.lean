import Scriptlet.Proofs.Eval.Likeness
import Scriptlet.Proofs.Parse.Likeness
import Scriptlet.Proofs.Token.Munch

/-! # Layout has no meaning

How a script is laid out shows in the places of its tokens only. Scripts that differ in nothing else
are read to programs that differ in places only, and these do the same: the one thing that can
differ is the line that is reported with an error. -/

namespace Scriptlet

/-! ## Forgetting places -/

/-- The function with every place in its body forgotten. -/
def FunctionObject.erase (f : FunctionObject) : FunctionObject :=
  { f with body := f.body.map (List.map Stmt.erase) }

def Machine.erase (m : Machine) : Machine :=
  { m with store := { m.store with functions := m.store.functions.map FunctionObject.erase } }

/-- How a computation ended, with places and the line of an error forgotten. -/
def Eval.eraseOutcome {α : Type} : EStateM.Result Halt Machine α → EStateM.Result Halt Machine α
  | .ok a m => .ok a m.erase
  | .error (.failed e) m => .error (.failed { e with line := 0 }) m.erase
  | .error .exhausted m => .error .exhausted m.erase

namespace Likeness

theorem tokens_upToPlaces {ts ts' : List Token}
    (same : ts.map Token.spelling = ts'.map Token.spelling) : upToPlaces.Tokens ts ts' := by
  refine (forall₂_map_eq.mpr same).imp fun t t' spelled => ?_
  obtain ⟨kind, lexeme, p⟩ := t
  obtain ⟨kind', lexeme', q⟩ := t'
  obtain ⟨rfl, rfl⟩ := Prod.mk.inj spelled
  exact ⟨trivial⟩

theorem function_upToPlaces {f f' : FunctionObject} :
    upToPlaces.Function f f' ↔ f.erase = f'.erase := by
  have bodies {body body' : Option (List Stmt)} :
      Option.Rel (List.Forall₂ upToPlaces.stmt) body body' ↔
        body.map (List.map Stmt.erase) = body'.map (List.map Stmt.erase) := by
    rw [← optionRel_map_eq]
    cases body <;> cases body' <;> simp [Option.rel_some_some, upToPlaces, forall₂_map_eq]
  constructor
  · rintro ⟨like⟩
    simp only [FunctionObject.erase, bodies.mp like]
  · intro same
    obtain ⟨signature, body, modifiers, scope⟩ := f
    obtain ⟨signature', body', modifiers', scope'⟩ := f'
    obtain ⟨rfl, erased, rfl, rfl⟩ := FunctionObject.mk.inj same
    exact ⟨bodies.mpr erased⟩

theorem body_upToPlaces (body : List Stmt) : upToPlaces.Body body :=
  forall₂_map_eq.mpr rfl

theorem machines_upToPlaces {m m' : Machine} : upToPlaces.Machines m m' ↔ m.erase = m'.erase := by
  have functions {fs fs' : Array FunctionObject} :
      List.Forall₂ upToPlaces.Function fs.toList fs'.toList ↔
        fs.map FunctionObject.erase = fs'.map FunctionObject.erase := by
    have same : upToPlaces.Function = fun f f' => f.erase = f'.erase := by
      funext f f'
      exact propext function_upToPlaces
    rw [same, forall₂_map_eq, ← Array.toList_map, ← Array.toList_map, Array.toList_inj]
  constructor
  · rintro ⟨⟨like⟩⟩
    simp only [Machine.erase, functions.mp like]
  · intro same
    obtain ⟨⟨scopes, fs, classes, instances⟩, console, registry, plugins, stubs⟩ := m
    obtain ⟨⟨scopes', fs', classes', instances'⟩, console', registry', plugins', stubs'⟩ := m'
    obtain ⟨stores, rfl, rfl, rfl, rfl⟩ := Machine.mk.inj same
    obtain ⟨rfl, erased, rfl, rfl⟩ := Store.mk.inj stores
    exact ⟨⟨functions.mpr erased⟩, fun body _ => body_upToPlaces body⟩

theorem Outcomes.erase_eq {α : Type} {r r' : EStateM.Result Halt Machine α}
    (h : upToPlaces.Outcomes r r') : Eval.eraseOutcome r = Eval.eraseOutcome r' := by
  cases h with
  | ok machines => simp only [Eval.eraseOutcome, machines_upToPlaces.mp machines]
  | failed _ _ machines => simp only [Eval.eraseOutcome, machines_upToPlaces.mp machines]
  | exhausted machines => simp only [Eval.eraseOutcome, machines_upToPlaces.mp machines]

end Likeness

/-! ## Programs -/

namespace Session

open Likeness

/-- Runs of programs that end in the same way. They leave the same behind up to places, but for the
line in the report of an error. -/
inductive SameButLine : EStateM.Result Halt Machine (Except RuntimeError Unit) →
    EStateM.Result Halt Machine (Except RuntimeError Unit) → Prop where
  | ended {m m' : Machine} : m.erase = m'.erase → SameButLine (.ok (.ok ()) m) (.ok (.ok ()) m')
  | stopped {cause : RuntimeCause} {line line' : Nat} {m m' : Machine} : m.erase = m'.erase →
      SameButLine
        (.ok (.error ⟨cause, line⟩) (m.writeLine
          ("Runtime error: " ++ (cause.message ++ " [line " ++ toString line ++ "]"))))
        (.ok (.error ⟨cause, line'⟩) (m'.writeLine
          ("Runtime error: " ++ (cause.message ++ " [line " ++ toString line' ++ "]"))))
  | exhausted {m m' : Machine} : m.erase = m'.erase →
      SameButLine (.error .exhausted m) (.error .exhausted m')

theorem sameButLine_interpret {program program' : Program} {m m' : Machine}
    (programs : program.erase = program'.erase) (machines : m.erase = m'.erase) (fuel : Nat) :
    SameButLine (interpret fuel program m) (interpret fuel program' m') := by
  have run := alike_executeAll (L := upToPlaces) (forall₂_map_eq.mpr programs) fuel m m'
    (machines_upToPlaces.mpr machines)
  rw [interpret_eq, interpret_eq]
  generalize executeAll fuel program m = r at run
  generalize executeAll fuel program' m' = r' at run
  cases run with
  | ok machines => exact .ended (machines_upToPlaces.mp machines)
  | failed _ _ machines => exact .stopped (machines_upToPlaces.mp machines)
  | exhausted machines => exact .exhausted (machines_upToPlaces.mp machines)

/-- Tokens that are spelled the same are read to the same program up to places, and rejected with
the same messages. Trees that are the same up to places end in the same way in interpreters that
are, in every frame, and leave them the same up to places; only the line of an error can differ.
Functions of the host are assumed not to look at the places in functions that they are handed. -/
theorem layout_has_no_meaning :
    (∀ ts ts' : List Token, ts.map Token.spelling = ts'.map Token.spelling →
      (Script.ofTokens ts).program.erase = (Script.ofTokens ts').program.erase ∧
        (Script.ofTokens ts).diagnostics.map (·.cause.message) =
          (Script.ofTokens ts').diagnostics.map (·.cause.message)) ∧
    ∀ (fuel : Nat) (m m' : Machine), m.erase = m'.erase →
      (∀ (e e' : Expr) (f : FrameId), e.erase = e'.erase →
        Eval.eraseOutcome ((Evaluator.ofFuel fuel).eval e f m) =
          Eval.eraseOutcome ((Evaluator.ofFuel fuel).eval e' f m')) ∧
      (∀ (s s' : Stmt) (f : FrameId), s.erase = s'.erase →
        Eval.eraseOutcome ((Evaluator.ofFuel fuel).exec s f m) =
          Eval.eraseOutcome ((Evaluator.ofFuel fuel).exec s' f m')) ∧
      ∀ program program' : Program, program.erase = program'.erase →
        SameButLine (interpret fuel program m) (interpret fuel program' m') := by
  constructor
  · intro ts ts' same
    have tokens := tokens_upToPlaces same
    refine ⟨forall₂_map_eq.mp (Script.alike_program tokens), ?_⟩
    refine forall₂_map_eq.mp ((Script.alike_diagnostics tokens (.inl trivial)).imp ?_)
    rintro _ _ ⟨-⟩
    rfl
  · intro fuel m m' machines
    have like := machines_upToPlaces.mpr machines
    have run := Evaluator.alike_ofFuel (L := upToPlaces) fuel
    refine ⟨?_, ?_, fun program program' same => sameButLine_interpret same machines fuel⟩
    · exact fun e e' f same => (run.eval same f m m' like).erase_eq
    · exact fun s s' f same => (run.exec same f m m' like).erase_eq

/-- A function whose body fails, written on one line and on five. -/
theorem layout_has_no_meaning_call :
    let flat := Token.scan "function f() \x7b return x; \x7d f();"
    let tall := Token.scan "function f()\n\x7b\n  return x;\n\x7d\n  f ();"
    let run (ts : List Token) := interpret 9 (Script.ofTokens ts).program (.fresh {})
    flat.map Token.spelling = tall.map Token.spelling ∧ SameButLine (run flat) (run tall) ∧
      Eval.answer? (run flat) = some (.error ⟨.undefinedVariable "x", 1⟩) ∧
      Eval.answer? (run tall) = some (.error ⟨.undefinedVariable "x", 3⟩) := by
  intro flat tall run
  have spelled : flat.map Token.spelling = tall.map Token.spelling := by decide +kernel
  have read := (layout_has_no_meaning.1 flat tall spelled).1
  have same := (layout_has_no_meaning.2 9 (.fresh {}) (.fresh {}) rfl).2.2 _ _ read
  exact ⟨spelled, same, by decide +kernel, by decide +kernel⟩

end Session

end Scriptlet
