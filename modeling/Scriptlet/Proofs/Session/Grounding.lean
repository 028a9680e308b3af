import Scriptlet.Proofs.Session.Actions

/-! # Every chain of frames ends in a root

Frames are put into frames that are there already, and functions run in frames that are there. So
every chain of frames ends in the global frame, or else in a frame that the host made for itself. -/

namespace Scriptlet

namespace Machine

/-- Every chain of frames ends in the global frame or in one of the host's own, and every function
was declared in a frame that exists. -/
structure Grounded (own : List FrameId) (m : Machine) : Prop where
  scopes : m.store.scopes.Rooted own
  functions : ∀ f ∈ m.store.functions, ∀ g ∈ f.scope, g < m.frameCount

variable {l : Licence} {m m' : Machine} {own : List FrameId}

theorem Grounded.scope_lt (h : m.Grounded own) (id : FunctionId) :
    (m.store.function id).scope.getD Scopes.globals < m.frameCount := by
  have inside : ∀ g ∈ (m.store.function id).scope, g < m.frameCount := by
    unfold Store.function
    rw [Array.getD_eq_getD_getElem?]
    cases found : m.store.functions[id]? with
    | none => simp [default, instInhabitedFunctionObject.default]
    | some f => exact h.functions f (Array.mem_of_getElem? found)
  cases scope : (m.store.function id).scope with
  | none => exact h.scopes.globals_lt
  | some g => exact inside g scope

/-- What the host does keeps frames where they are, and its functions run in frames that are
there. -/
theorem Grounded.of_variesInGlobals (h : m.Grounded own) {made : List Stmt → Prop}
    (varies : m.store.VariesInGlobals made m'.store) : m'.Grounded own where
  scopes := h.scopes.varyInGlobals varies.scopes
  functions f mem g scope := by
    rw [frameCount, varies.scopes.count]
    rcases varies.functions f mem with old | ⟨-, inside⟩
    · exact h.functions f old g scope
    · exact inside g scope

theorem Grounded.withRoot (h : m.Grounded own) : m.withRoot.Grounded (m.frameCount :: own) where
  scopes := h.scopes.root
  functions f mem g scope :=
    Nat.lt_trans (h.functions f mem g scope)
      (Nat.lt_of_lt_of_eq (Nat.lt_succ_self _) m.store.scopes.count_root.symm)

theorem Grounded.step (h : m.Grounded own) (homes : ∀ f, l.homes f → f < m.frameCount)
    (step : Step l m m') : m'.Grounded own := by
  have reached : ∀ f, l.Reaches m f → f < m.frameCount := by
    rintro f (home | ⟨-, inside⟩)
    · exact homes f home
    · exact inside
  have grown : m.frameCount ≤ m'.frameCount := step.frameCount_le
  cases step with
  | console | newClass | newInstance | setField => exact ⟨h.scopes, h.functions⟩
  | newFrame parent allowed =>
      have inside : parent < m.frameCount := by
        rcases allowed with reaches | ⟨id, rfl⟩
        · exact reached parent reaches
        · exact h.scope_lt id
      refine ⟨h.scopes.child inside, fun f mem g scope => ?_⟩
      exact Nat.lt_of_lt_of_le (h.functions f mem g scope) grown
  | rebind f name value | declare f name value =>
      refine ⟨h.scopes.define f name value, fun f' mem g scope => ?_⟩
      exact Nat.lt_of_lt_of_eq (h.functions f' mem g scope)
        (m.store.scopes.count_define f name value).symm
  | newFunction f declared =>
      refine ⟨h.scopes, fun f' mem g scope => ?_⟩
      rcases Array.mem_push.mp mem with old | rfl
      · exact h.functions f' old g scope
      · exact reached g (declared g scope)
  | load nickname => exact h.of_variesInGlobals (m.loadByName_variesInGlobals nickname)
  | unload nameOrAlias => exact h.of_variesInGlobals (m.unload_variesInGlobals nameOrAlias)

theorem Grounded.steps (h : m.Grounded own) (homes : ∀ f, l.homes f → f < m.frameCount)
    (steps : Steps l m m') : m'.Grounded own := by
  induction steps with
  | refl => exact h
  | tail before step ih =>
      exact ih.step (fun f home => Nat.lt_of_lt_of_le (homes f home) (Steps.frameCount_le before))
        step

theorem grounded_fresh (console : Console) : (fresh console).Grounded [] := by
  unfold fresh
  refine .of_variesInGlobals (m := ⟨⟨Scopes.empty.root.2, #[], #[], #[]⟩, _, _, _, _⟩) ?_
    (foldl_variesInGlobals (fun m b => m.defineStub_variesInGlobals _ _) _ _)
  refine ⟨⟨rfl, nofun, fun f other _ inside => ?_⟩, fun f mem => by simp at mem⟩
  exact absurd (Nat.lt_one_iff.mp inside) other

end Machine

namespace Session

open Machine

theorem grounded_apply {m : Machine} {own : List FrameId} (operation : Operation)
    (h : m.Grounded own) : (operation.apply m).Grounded own := by
  cases operation with
  | load p => exact h.of_variesInGlobals (m.load_variesInGlobals p)
  | loadByName nickname => exact h.of_variesInGlobals (m.loadByName_variesInGlobals nickname)
  | unload nameOrAlias => exact h.of_variesInGlobals (m.unload_variesInGlobals nameOrAlias)
  | run fuel source =>
      refine h.steps ?_ (runs_run fuel source m)
      rintro f rfl
      exact h.scopes.globals_lt
  | defineFunction name f =>
      exact h.of_variesInGlobals
        (m.defineFunction_variesInGlobals name fun body mem => (mem : body ∈ f.body))
  | offer | register | unregister => exact ⟨h.scopes, h.functions⟩

/-- In a session the host makes no frames for itself. -/
theorem grounded_after (console : Console) (operations : List Operation) :
    (after console operations).Grounded [] :=
  after_induction grounded_fresh (fun _ operation => grounded_apply operation) console operations

end Session

end Scriptlet
