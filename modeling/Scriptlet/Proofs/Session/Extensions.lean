import Scriptlet.Proofs.Eval.Bonds

/-! # Extensions change by plugin calls only

What extends an interpreter is its registry, its plugins with all that is kept about them, and the
stubs of their functions. Scripts come to them by loading and unloading plugins only, and they do
this only at calls that name it: a value of the same name is a mere stub, wherever it is kept. -/

namespace Scriptlet

/-- The names by which scripts load and unload plugins. -/
def pluginCalls : List String := ["loadPlugin", "unloadPlugin"]

namespace Machine

/-- The second interpreter has the extensions of the first, and all its names. -/
structure KeepsExtensions (m n : Machine) : Prop where
  registry : n.registry = m.registry
  plugins : n.plugins = m.plugins
  stubs : n.stubs = m.stubs
  names : ∀ f name, m.store.scopes.Binds f name → n.store.scopes.Binds f name

theorem KeepsExtensions.refl (m : Machine) : m.KeepsExtensions m :=
  ⟨rfl, rfl, rfl, fun _ _ => id⟩

theorem KeepsExtensions.trans {l m n : Machine} (h : l.KeepsExtensions m)
    (h' : m.KeepsExtensions n) : l.KeepsExtensions n where
  registry := h'.registry.trans h.registry
  plugins := h'.plugins.trans h.plugins
  stubs := h'.stubs.trans h.stubs
  names f name bound := h'.names f name (h.names f name bound)

theorem Change.keepsExtensions (m : Machine) (c : Change) : m.KeepsExtensions (c.apply m) := by
  cases c with
  | newFrame parent =>
      refine ⟨rfl, rfl, rfl, fun f name bound => ?_⟩
      simpa [apply, Scopes.Binds] using bound
  | define g other value =>
      refine ⟨rfl, rfl, rfl, fun f name bound => ?_⟩
      simp only [apply, Scopes.Binds, Scopes.local?_define] at bound ⊢
      split
      · rfl
      · exact bound
  | console | newFunction | newClass | newInstance | setField =>
      exact ⟨rfl, rfl, rfl, fun _ _ => id⟩

/-- An interpreter and itself, as long as it has the extensions that it started with and no body
makes plugin calls. -/
def withExtensionsOf (start : Machine) : Bond where
  calls name := name ∉ pluginCalls
  anyFrame := True
  rel m m' := m' = m ∧ start.KeepsExtensions m ∧ m.CallsOnly (· ∉ pluginCalls)
  astray _ := False
  same := by
    rintro m _ ⟨rfl, -⟩
    rfl
  registry := by
    rintro m _ ⟨rfl, -⟩ name -
    rfl
  bodies h id := h.2.2.function id
  scopes _ _ := .inl trivial
  change := by
    rintro m _ ⟨rfl, kept, bodies⟩ c fits
    exact ⟨rfl, kept.trans (c.keepsExtensions _), bodies.change fits⟩
  load called := absurd (by simp [pluginCalls]) called
  unload called := absurd (by simp [pluginCalls]) called
  stays _ := id

end Machine

namespace Session

open Machine

end Session

end Scriptlet
