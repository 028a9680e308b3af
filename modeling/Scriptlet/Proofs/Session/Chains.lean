import Scriptlet.Proofs.Eval.Bonds
import Scriptlet.Proofs.Eval.Hygiene
import Scriptlet.Proofs.Session.Actions
import Scriptlet.Proofs.Session.Grounding
import Scriptlet.Proofs.Value.Chains

/-! # Scopes are anchored

Whatever scripts and their host do, frames are only ever put into frames that are there, and stay
where they were put. So from every frame that something can run in, and from the frame of every
function, the way outwards ends in the global frame, or else in a frame that the host made for
itself; this holds between runs, and all along them. -/

namespace Scriptlet

namespace Machine

/-- From every frame, and from the frame of every function, the way outwards ends in the global
frame or in one of the host's own. The methods of classes are functions too. -/
structure Anchored (own : List FrameId) (m : Machine) : Prop where
  frames : ∀ f, f < m.frameCount → m.store.scopes.Anchors own f
  functions : ∀ id, m.store.scopes.Anchors own ((m.store.function id).scope.getD Scopes.globals)

/-- No frame is given up, and all stay where they are. -/
structure KeepsFrames (m n : Machine) : Prop where
  count : m.frameCount ≤ n.frameCount
  parents : ∀ f, f < m.frameCount → n.store.scopes.parentOf f = m.store.scopes.parentOf f

/-- Frames stay where they are, and new ones are put into frames that are there, but for those of
the host's own. -/
structure Deepens (own : List FrameId) (m n : Machine) : Prop extends m.KeepsFrames n where
  grounded : n.Grounded own

/-- A single step of a script that leaves all frames where they are and all scopes anchored. -/
structure FirmStep (own : List FrameId) (m n : Machine) : Prop where
  step : ∃ l, Step l m n
  keeps : m.KeepsFrames n
  anchored : n.Anchored own

/-- Frames and functions may be put into every frame that is there, and every name may be bound. -/
def Licence.wide (m : Machine) : Licence :=
  ⟨0, (· < m.frameCount), fun _ _ => True⟩

variable {l m n : Machine} {own : List FrameId}

theorem Grounded.anchored (h : m.Grounded own) : m.Anchored own where
  frames _ inside := h.scopes.anchors inside
  functions id := h.scopes.anchors (h.scope_lt id)

theorem Grounded.firmSteps (h : m.Grounded own) {l : Licence}
    (homes : ∀ f, l.homes f → f < m.frameCount) (steps : Steps l m n) :
    Relation.ReflTransGen (FirmStep own) m n := by
  induction steps with
  | refl => exact .refl
  | tail before step ih =>
      have after := (h.steps homes (before.tail step)).anchored
      exact ih.tail ⟨⟨l, step⟩, ⟨step.frameCount_le, fun _ old => step.parentOf old⟩, after⟩

theorem Grounded.firmRun (h : m.Grounded own) {α : Type} {x : Eval α} {f : FrameId}
    {binds : FrameId → String → Prop} (runs : x.Runs (· = f) binds) (inside : f < m.frameCount) :
    Relation.ReflTransGen (FirmStep own) m (x.after m) := by
  refine h.firmSteps ?_ (runs m)
  rintro _ rfl
  exact inside

namespace Deepens

theorem refl (h : m.Grounded own) : m.Deepens own m :=
  ⟨⟨Nat.le_refl _, fun _ _ => rfl⟩, h⟩

theorem trans (h : l.Deepens own m) (h' : m.Deepens own n) : l.Deepens own n where
  count := Nat.le_trans h.count h'.count
  parents f old := (h'.parents f (Nat.lt_of_lt_of_le old h.count)).trans (h.parents f old)
  grounded := h'.grounded

theorem of_steps (h : m.Grounded own) {l : Licence} (homes : ∀ f, l.homes f → f < m.frameCount)
    (steps : Steps l m n) : m.Deepens own n :=
  ⟨⟨steps.frameCount_le, fun _ old => steps.parentOf old⟩, h.steps homes steps⟩

theorem of_runs (h : m.Grounded own) {α : Type} {x : Eval α} {f : FrameId}
    {binds : FrameId → String → Prop} (runs : x.Runs (· = f) binds) (inside : f < m.frameCount) :
    m.Deepens own (x.after m) := by
  refine of_steps h ?_ (runs m)
  rintro _ rfl
  exact inside

theorem of_variesInGlobals (h : m.Grounded own) {made : List Stmt → Prop}
    (varies : m.store.VariesInGlobals made n.store) : m.Deepens own n :=
  ⟨⟨Nat.le_of_eq varies.scopes.count.symm, fun f _ => varies.scopes.parentOf f⟩,
    h.of_variesInGlobals varies⟩

theorem of_step (h : m.Grounded own) (step : Step (.wide m) m n) : m.Deepens own n :=
  of_steps h (fun _ home => home) (.single step)

theorem change (h : m.Grounded own) {calls : String → Prop} {usable : FrameId → Prop} {c : Change}
    (fits : c.Fits calls usable m) (inside : ∀ f, usable f → f < m.frameCount) :
    m.Deepens own (c.apply m) := by
  apply of_step h
  cases c with
  | console written => exact .console m written
  | newFrame parent => exact .newFrame m parent (.inl (.inl (inside parent fits)))
  | define f name value => exact .declare m f name value (.inr trivial)
  | newFunction f => exact .newFunction m f fun g mem => .inl (inside g (fits.2 g mem))
  | newClass c => exact .newClass m c
  | newInstance id => exact .newInstance m id fits
  | setField id name value => exact .setField m id name value

theorem withRoot (h : m.Grounded own) : m.Deepens (m.frameCount :: own) m.withRoot where
  count := Nat.le_of_lt (Nat.lt_of_lt_of_eq (Nat.lt_succ_self _) m.store.scopes.count_root.symm)
  parents f old := (m.store.scopes.parentOf_root f).trans (if_neg (Nat.ne_of_lt old))
  grounded := h.withRoot

end Deepens

/-- An interpreter and itself, as long as frames stay where they are. -/
def withFramesOf (own : List FrameId) (start : Machine) : Bond where
  calls _ := True
  anyFrame := False
  rel m m' := m' = m ∧ start.Deepens own m
  astray _ := False
  same := by
    rintro m _ ⟨rfl, -⟩
    rfl
  registry := by
    rintro m _ ⟨rfl, -⟩ name -
    rfl
  bodies _ _ _ _ _ _ _ _ := trivial
  scopes h id := .inr (h.2.grounded.scope_lt id)
  change := by
    rintro m _ ⟨rfl, deeper⟩ c fits
    exact ⟨rfl, deeper.trans (.change deeper.grounded fits fun _ usable => usable.resolve_left id)⟩
  load := by
    rintro - m _ ⟨rfl, deeper⟩ nickname
    exact .inl ⟨rfl, deeper.trans (.of_variesInGlobals deeper.grounded
      (loadByName_variesInGlobals _ nickname))⟩
  unload := by
    rintro - m _ ⟨rfl, deeper⟩ nameOrAlias
    exact ⟨rfl, deeper.trans (.of_variesInGlobals deeper.grounded
      (unload_variesInGlobals _ nameOrAlias))⟩
  stays _ := id

end Machine

theorem Blueprint.buildAll_allocates (designs : List Blueprint) (s : Store) :
    Store.Allocations s (buildAll designs s).2 := by
  induction designs generalizing s with
  | nil => exact .refl
  | cons design designs ih => exact (design.build_allocates s).trans (ih _)

namespace Session

open Machine

/-! ## All that a host can do -/

/-- What the host runs, it runs in a frame of the interpreter. -/
def Action.Inside (m : Machine) : Action → Prop
  | .execute _ _ f | .evaluate _ _ f => f < m.frameCount
  | _ => True

/-- The frames that the host makes for itself. -/
def Action.roots (m : Machine) : Action → List FrameId
  | .root => [m.frameCount]
  | _ => []

/-- Something that a host does, with the frames that it makes for itself: an action, or a change
that scripts make as well, such as a frame inside another. -/
inductive Move (m : Machine) : List FrameId → Machine → Prop where
  | act (a : Action) : a.Inside m → Move m (a.roots m) (a.apply m)
  | change (c : Change) : c.Fits (fun _ => True) (· < m.frameCount) m → Move m [] (c.apply m)

/-- The interpreters that come from fresh ones by what hosts do, with all frames that the host has
made for itself. -/
inductive Reached : List FrameId → Machine → Prop where
  | fresh (console : Console) : Reached [] (.fresh console)
  | next {own roots : List FrameId} {m n : Machine} : Reached own m → Move m roots n →
      Reached (roots ++ own) n

variable {m n : Machine} {own roots : List FrameId}

theorem deepens_operation (h : m.Grounded own) (o : Operation) : m.Deepens own (o.apply m) := by
  cases o with
  | load p => exact .of_variesInGlobals h (m.load_variesInGlobals p)
  | loadByName nickname => exact .of_variesInGlobals h (m.loadByName_variesInGlobals nickname)
  | unload nameOrAlias => exact .of_variesInGlobals h (m.unload_variesInGlobals nameOrAlias)
  | run fuel source => exact .of_runs h (runs_run fuel source) h.scopes.globals_lt
  | defineFunction name f =>
      exact .of_variesInGlobals h
        (m.defineFunction_variesInGlobals name fun body mem => (mem : body ∈ f.body))
  | offer | register | unregister =>
      exact ⟨⟨Nat.le_refl _, fun _ _ => rfl⟩, h.scopes, h.functions⟩

theorem deepens_build (h : m.Grounded own) (design : Blueprint) :
    m.Deepens own { m with store := (design.build m.store).2 } :=
  .of_variesInGlobals h (design.build_allocates m.store).variesInGlobals

theorem deepens_action (h : m.Grounded own) {a : Action} (inside : a.Inside m) :
    m.Deepens (a.roots m ++ own) (a.apply m) := by
  cases a with
  | operation o => exact deepens_operation h o
  | interpret fuel program =>
      exact .of_runs h (runs_interpret fuel program) h.scopes.globals_lt
  | execute fuel s f => exact .of_runs h ((Evaluator.runs_ofFuel fuel).exec s f) inside
  | evaluate fuel e f => exact .of_runs h ((Evaluator.runs_ofFuel fuel).eval e f) inside
  | root => exact .withRoot h
  | define f name design =>
      have built := deepens_build h design
      exact built.trans (.of_step built.grounded (.declare _ f name _ (.inr trivial)))
  | remove f name =>
      have count := m.store.scopes.count_remove f name
      refine ⟨⟨Nat.le_of_eq count.symm, fun g _ => m.store.scopes.parentOf_remove f g name⟩,
        h.scopes.remove f name, fun g mem scope declared => ?_⟩
      exact Nat.lt_of_lt_of_eq (h.functions g mem scope declared) count.symm
  | setField object name design =>
      have first := deepens_build h object
      have built := first.trans (deepens_build first.grounded design)
      simp only [Action.apply]
      split
      · rename_i id _
        exact built.trans (.of_step built.grounded (.setField _ id name _))
      · exact built
  | register resource entry =>
      exact .of_variesInGlobals h (resource.build_allocates m.store).variesInGlobals
  | callPlugin name args | callRegistered name args =>
      exact .of_variesInGlobals h (Blueprint.buildAll_allocates args m.store).variesInGlobals

theorem Move.deepens (h : m.Grounded own) (move : Move m roots n) : m.Deepens (roots ++ own) n := by
  cases move with
  | act a inside => exact deepens_action h inside
  | change c fits => exact .change h fits fun _ => id

theorem Reached.grounded (h : Reached own m) : m.Grounded own := by
  induction h with
  | fresh console => exact grounded_fresh console
  | next _ move ih => exact (move.deepens ih).grounded

/-- A host has made a frame for itself, which is the second one. -/
theorem reached_root : Reached [1] (Action.apply (.fresh {}) .root) :=
  .next (.fresh {}) (.act .root trivial)

/-! ## Runs -/

/-- Whatever is run in a frame of the interpreter makes firm steps only, whether or not it
succeeds. -/
structure RunsFirmly (own : List FrameId) (m : Machine) : Prop where
  eval : ∀ fuel e f, f < m.frameCount →
    Relation.ReflTransGen (FirmStep own) m (((Evaluator.ofFuel fuel).eval e f).after m)
  exec : ∀ fuel s f, f < m.frameCount →
    Relation.ReflTransGen (FirmStep own) m (((Evaluator.ofFuel fuel).exec s f).after m)
  interpret : ∀ fuel program,
    Relation.ReflTransGen (FirmStep own) m ((interpret fuel program).after m)

theorem runsFirmly (h : m.Grounded own) : RunsFirmly own m where
  eval fuel e f inside := h.firmRun ((Evaluator.runs_ofFuel fuel).eval e f) inside
  exec fuel s f inside := h.firmRun ((Evaluator.runs_ofFuel fuel).exec s f) inside
  interpret fuel program := h.firmRun (runs_interpret fuel program) h.scopes.globals_lt

/-- Whatever is run in a frame of the interpreter, it runs as it does without the observer. -/
structure Unobserved (m : Machine) (observer : FrameId → Expr ⊕ Stmt → Eval Unit) : Prop where
  eval : ∀ fuel e f, f < m.frameCount →
    (Evaluator.observed observer fuel).eval e f m = (Evaluator.ofFuel fuel).eval e f m
  exec : ∀ fuel s f, f < m.frameCount →
    (Evaluator.observed observer fuel).exec s f m = (Evaluator.ofFuel fuel).exec s f m
  runAll : ∀ fuel program,
    (Evaluator.observed observer fuel).runAll program m = executeAll fuel program m

end Session

end Scriptlet
