import Scriptlet.Proofs.Eval.Steps

/-! # Hygiene of scopes

Running an expression leaves the parents and the names of all frames as they were, and running a
statement adds to the names of its own frame only those that it declares. Loading and unloading
plugins is the one exception, and it is confined to the global frame. -/

namespace Scriptlet

namespace Scopes

/-- A frame keeps its names, and gains none but those granted. -/
def GainsOnly (gains : String → Prop) (f : FrameId) (s t : Scopes) : Prop :=
  ∀ name, (s.Binds f name → t.Binds f name) ∧ (t.Binds f name → s.Binds f name ∨ gains name)

variable {s t u : Scopes} {f : FrameId} {gains : String → Prop}

theorem GainsOnly.of_eq (same : ∀ name, t.local? f name = s.local? f name) :
    GainsOnly gains f s t := by
  intro name
  unfold Binds
  rw [same]
  exact ⟨id, .inl⟩

theorem GainsOnly.trans (h : GainsOnly gains f s t) (h' : GainsOnly gains f t u) :
    GainsOnly gains f s u := by
  intro name
  refine ⟨fun bound => (h' name).1 ((h name).1 bound), fun bound => ?_⟩
  rcases (h' name).2 bound with bound | granted
  · exact (h name).2 bound
  · exact .inr granted

/-- Binding a name changes the names of one frame at most, and by that name at most. -/
theorem GainsOnly.define (g : FrameId) (name : String) (value : Value)
    (granted : g = f → s.Binds f name ∨ gains name) :
    GainsOnly gains f s (s.define g name value) := by
  intro other
  unfold Binds
  rw [local?_define]
  split
  · rename_i here
    obtain ⟨rfl, rfl, -⟩ := here
    exact ⟨fun _ => rfl, fun _ => granted rfl⟩
  · exact ⟨id, .inl⟩

end Scopes

namespace Machine

/-- A plugin is loaded or unloaded, as scripts do it. -/
def PluginCall (m m' : Machine) : Prop :=
  (∃ nickname, m' = (m.loadByName nickname).2) ∨ ∃ nameOrAlias, m' = (m.unload nameOrAlias).2

variable {l : Licence} {m m' : Machine} {f : FrameId}

theorem PluginCall.variesInGlobals (h : PluginCall m m') :
    m.store.VariesInGlobals m.plugins.Offers m'.store := by
  rcases h with ⟨nickname, rfl⟩ | ⟨nameOrAlias, rfl⟩
  · exact m.loadByName_variesInGlobals nickname
  · exact (m.unload_variesInGlobals nameOrAlias).of_noBody

/-! ## One step -/

theorem Step.parentOf (step : Step l m m') (old : f < m.frameCount) :
    m'.store.scopes.parentOf f = m.store.scopes.parentOf f := by
  cases step with
  | console | newFunction | newClass | newInstance | setField => rfl
  | newFrame parent =>
      have kept := m.store.scopes.parentOf_child parent f
      rwa [if_neg (Nat.ne_of_lt old)] at kept
  | rebind g name value | declare g name value => exact m.store.scopes.parentOf_define g f name value
  | load nickname => exact (m.loadByName_variesInGlobals nickname).scopes.parentOf f
  | unload nameOrAlias => exact (m.unload_variesInGlobals nameOrAlias).scopes.parentOf f

/-- A step that is no plugin call gives an older frame no names but those that the licence
grants. -/
theorem Step.names (step : Step l m m') (old : f < l.start) :
    Scopes.GainsOnly (l.binds f) f m.store.scopes m'.store.scopes ∨ PluginCall m m' := by
  cases step with
  | console | newFunction | newClass | newInstance | setField => exact .inl (.of_eq fun _ => rfl)
  | newFrame parent => exact .inl (.of_eq fun name => m.store.scopes.local?_child parent f name)
  | rebind g name value bound =>
      exact .inl (.define g name value fun here => .inl (here ▸ bound))
  | declare g name value granted =>
      refine .inl (.define g name value fun here => .inr ?_)
      subst here
      exact granted.resolve_left (Nat.not_le_of_lt old)
  | load nickname => exact .inr (.inl ⟨nickname, rfl⟩)
  | unload nameOrAlias => exact .inr (.inr ⟨nameOrAlias, rfl⟩)

/-! ## Any number of steps -/

/-- What running something leaves alone, however it ends. `gains` says which names it may add to
which of the frames that were there before. -/
structure Hygienic (gains : FrameId → String → Prop) (m m' : Machine) : Prop where
  parents : ∀ f, f < m.frameCount → m'.store.scopes.parentOf f = m.store.scopes.parentOf f
  names : ∀ f, f < m.frameCount → f ≠ Scopes.globals →
    Scopes.GainsOnly (gains f) f m.store.scopes m'.store.scopes
  /-- The names of the global frame vary as well, but only where plugins are loaded and
  unloaded. -/
  globals : Scopes.globals < m.frameCount → Relation.ReflTransGen
    (fun a b => (∃ l, Step l a b) ∧
      (Scopes.GainsOnly (gains Scopes.globals) Scopes.globals a.store.scopes b.store.scopes ∨
        PluginCall a b)) m m'

theorem Steps.parentOf (h : Steps l m m') (old : f < m.frameCount) :
    m'.store.scopes.parentOf f = m.store.scopes.parentOf f := by
  induction h with
  | refl => rfl
  | tail before step ih =>
      exact (step.parentOf (Nat.lt_of_lt_of_le old (Steps.frameCount_le before))).trans ih

theorem Steps.names (h : Steps l m m') (old : f < l.start) (other : f ≠ Scopes.globals) :
    Scopes.GainsOnly (l.binds f) f m.store.scopes m'.store.scopes := by
  induction h with
  | refl => exact .of_eq fun _ => rfl
  | tail _ step ih =>
      rcases step.names old with kept | call
      · exact ih.trans kept
      · exact ih.trans (.of_eq fun name => call.variesInGlobals.scopes.local? f other name)

theorem Steps.hygienic {homes : FrameId → Prop} {binds : FrameId → String → Prop}
    (h : Steps ⟨m.frameCount, homes, binds⟩ m m') : Hygienic binds m m' where
  parents _ old := h.parentOf old
  names _ old other := h.names old other
  globals old := h.lift id fun _ _ step => ⟨⟨_, step⟩, step.names old⟩

end Machine

namespace Evaluator

open Eval Machine

/-- Whatever an expression does, and whether or not it fails, the frames that were there before keep
their parents and their names. A statement may add the names that it declares to the frame it runs
in. Only plugins that are loaded or unloaded meanwhile vary the names of the global frame. Functions
of the host are assumed to bind nothing in the frames of functions that they are handed. -/
theorem frames_hygienic (fuel : Nat) (m : Machine) (f : FrameId) :
    (∀ e, Hygienic nothing m (((ofFuel fuel).eval e f).after m)) ∧
      ∀ s, Hygienic (declares f s) m (((ofFuel fuel).exec s f).after m) :=
  ⟨fun e => ((runs_ofFuel fuel).eval e f m).hygienic,
    fun s => ((runs_ofFuel fuel).exec s f m).hygienic⟩

end Evaluator

end Scriptlet
