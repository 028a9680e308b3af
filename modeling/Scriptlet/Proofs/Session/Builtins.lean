import Scriptlet.Proofs.Host.Bindings
import Scriptlet.Proofs.Session.Grounding
import Scriptlet.Proofs.Value.Forests

/-! # The names that every script can call

The names of the builtin functions are bound from the start. Scripts and the host may bind them to
something else, but only a plugin that exposes a function of such a name can make it undefined. -/

namespace Scriptlet

namespace Machine

variable {l : Licence} {m m' : Machine} {name : String}

/-! ## Names that stay bound -/

theorem Secure.define (h : m.Secure name) (f : FrameId) (other : String) (value : Value) :
    Secure name { m with
      store := { m.store with scopes := m.store.scopes.define f other value } } where
  bound := by
    show ((m.store.scopes.define f other value).local? Scopes.globals name).isSome
    rw [Scopes.local?_define]
    split
    · rfl
    · exact h.bound
  unstubbed := h.unstubbed
  unoffered := h.unoffered

/-- No step of a running script frees a name that no plugin exposes. -/
theorem Secure.step (h : m.Secure name) (step : Step l m m') : m'.Secure name := by
  cases step with
  | console | newFunction | newClass | newInstance | setField => exact h.congr rfl rfl rfl
  | newFrame parent =>
      refine ⟨?_, h.unstubbed, h.unoffered⟩
      show ((m.store.scopes.child parent).2.local? Scopes.globals name).isSome
      rw [Scopes.local?_child]
      exact h.bound
  | rebind f other value | declare f other value => exact h.define f other value
  | load nickname => exact h.loadByName nickname
  | unload nameOrAlias => exact h.unload nameOrAlias

theorem bound_defineBuiltins {builtins : List Builtin} {b : Builtin}
    (h : (m.global? b.signature.name).isSome ∨ b ∈ builtins)
    (inside : Scopes.globals < m.frameCount) :
    ((builtins.foldl (fun m b => (m.defineStub b.signature.name b.signature).2) m).global?
      b.signature.name).isSome := by
  induction builtins generalizing m with
  | nil => simpa using h
  | cons c builtins ih =>
      have count := (m.defineStub_variesInGlobals c.signature.name c.signature).scopes.count
      refine ih ?_ (Nat.lt_of_lt_of_eq inside count.symm)
      rw [global?_defineStub]
      split
      · exact .inl rfl
      · rename_i other
        refine h.imp_right fun mem => (List.mem_cons.mp mem).resolve_left ?_
        rintro rfl
        exact other ⟨rfl, inside⟩

theorem secure_fresh (console : Console) (b : Builtin) :
    (fresh console).Secure b.signature.name where
  bound := bound_defineBuiltins (.inr (by cases b <;> decide)) (Nat.zero_lt_one)
  unstubbed := by
    have none_yet : (fresh console).stubs = ∅ := rfl
    simp [none_yet]
  unoffered nickname p found _ := by
    have plugins : (fresh console).plugins =
      Lambda.aliases.foldl (fun t nickname => t.offer nickname Lambda.plugin) {} := rfl
    rw [plugins] at found
    rcases available_offerAll found with rfl | nothing
    · cases b <;> simp [Plugin.Exposes, Lambda.plugin, Builtin.signature]
    · simp at nothing

/-- Every builtin name is bound in the global frame, and can be looked up from every frame. -/
def KnowsBuiltins (m : Machine) : Prop :=
  ∀ b : Builtin, m.store.scopes.Binds Scopes.globals b.signature.name ∧
    ∀ f < m.frameCount, ∀ line, ∃ value, Eval.lookup f b.signature.name line m = .ok value m

theorem Grounded.knowsBuiltins (h : m.Grounded [])
    (secure : ∀ b : Builtin, m.Secure b.signature.name) : m.KnowsBuiltins := by
  intro b
  have bound : m.store.scopes.Binds Scopes.globals b.signature.name := (secure b).bound
  refine ⟨bound, fun f inside line => ?_⟩
  obtain ⟨value, found⟩ := Option.isSome_iff_exists.mp (h.scopes.isSome_get? bound inside)
  exact ⟨value, by rw [Eval.lookup_eq, found]⟩

end Machine

namespace Session

open Machine

/-- The plugin that an operation hands over. -/
def Operation.plugin? : Operation → Option Plugin
  | load p | offer _ p => some p
  | loadByName .. | unload .. | run .. | defineFunction .. | register .. | unregister .. => none

/-- A state of a session: one between two operations, or one that a script can come to. -/
def Reachable (console : Console) (operations : List Operation) (m : Machine) : Prop :=
  Steps ⟨(after console operations).frameCount, (· = Scopes.globals), Eval.allIn Scopes.globals⟩
    (after console operations) m

theorem secure_apply {m : Machine} {name : String} (h : m.Secure name) {operation : Operation}
    (harmless : ∀ p ∈ operation.plugin?, p.CanLoad → ¬ p.Exposes name) :
    (operation.apply m).Secure name := by
  cases operation with
  | load p => exact h.load (harmless p rfl)
  | loadByName nickname => exact h.loadByName nickname
  | unload nameOrAlias => exact h.unload nameOrAlias
  | run fuel source => exact (runs_run fuel source m).preserve (fun _ _ step h => h.step step) h
  | defineFunction other f => exact h.defineFunction other f
  | register | unregister => exact h.congr rfl rfl rfl
  | offer nickname p =>
      refine ⟨h.bound, h.unstubbed, fun other q found => ?_⟩
      rcases available_offer found with rfl | old
      · exact harmless q rfl
      · exact h.unoffered other q old

theorem secure_after {name : String} (console : Console) (operations : List Operation)
    (fresh : (Machine.fresh console).Secure name)
    (harmless : ∀ operation ∈ operations, ∀ p ∈ operation.plugin?, p.CanLoad → ¬ p.Exposes name) :
    (after console operations).Secure name :=
  List.foldlRecOn operations Operation.apply fresh fun _ h operation mem =>
    secure_apply h (harmless operation mem)

/-- The builtin names are known in every state of every session exactly if the plugins that come
into it expose none of them, those apart that cannot be loaded. -/
theorem builtins_known_iff (console : Console) (allowed : Plugin → Prop) :
    (∀ operations m, (∀ operation ∈ operations, ∀ p ∈ operation.plugin?, allowed p) →
        Reachable console operations m → m.KnowsBuiltins) ↔
      ∀ p, allowed p → p.CanLoad → ∀ b : Builtin, ¬ p.Exposes b.signature.name := by
  constructor
  · -- Loading and unloading one such plugin is enough to lose the name.
    intro known p isAllowed loads b exposes
    have areAllowed : ∀ operation ∈ [Operation.load p, .unload p.name],
        ∀ q ∈ operation.plugin?, allowed q := by
      simpa [Operation.plugin?] using isAllowed
    have bound := (known _ _ areAllowed .refl b).1
    have inside := (grounded_fresh console).scopes.globals_lt
    have freed := (fresh console).global?_unload_load loads exposes inside
    rw [Scopes.Binds, Option.isSome_iff_ne_none] at bound
    exact bound freed
  · intro harmless operations m areAllowed reached
    have start := grounded_after console operations
    have grounded : m.Grounded [] := by
      refine start.steps ?_ reached
      rintro f rfl
      exact start.scopes.globals_lt
    refine grounded.knowsBuiltins fun b => ?_
    have secure := secure_after console operations (secure_fresh console b)
      fun operation mem p hp loads => harmless p (areAllowed operation mem p hp) loads b
    exact Steps.preserve (fun _ _ step h => h.step step) reached secure

end Session

end Scriptlet
