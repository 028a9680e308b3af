import Scriptlet.Proofs.Host.Bookkeeping
import Scriptlet.Proofs.Session.Operations

/-! # Plugins in sessions

Scripts load and unload plugins as the host does. Whatever the order, the table of plugins and the
stubs for their functions agree. -/

namespace Scriptlet

namespace Machine

theorem keeps_of_functions (m : Machine) {store : Store}
    (h : store.functions = m.store.functions) : m.Keeps { m with store } :=
  ⟨rfl, rfl, fun _ _ hf => h ▸ hf⟩

/-- Every step of a running script keeps the books. -/
theorem Bookkept.step {l : Licence} {m m' : Machine} (h : m.Bookkept) (step : Step l m m') :
    m'.Bookkept := by
  cases step with
  | console console => exact h.of_keeps ⟨rfl, rfl, fun _ _ hf => hf⟩
  | newFrame | rebind | declare | newClass | newInstance | setField =>
      exact h.of_keeps (m.keeps_of_functions rfl)
  | newFunction f =>
      exact h.of_keeps (m.keeps_of_extends (m.store.addFunction_extends f) m.registry)
  | load nickname => exact h.loadByName nickname
  | unload nameOrAlias => exact h.unload nameOrAlias

theorem Bookkept.offerAll {m : Machine} (h : m.Bookkept) (nicknames : List String) (p : Plugin) :
    Bookkept { m with
      plugins := nicknames.foldl (fun t nickname => t.offer nickname p) m.plugins } := by
  induction nicknames generalizing m with
  | nil => exact h
  | cons nickname nicknames ih => exact ih (h.offer nickname p)

theorem Bookkept.defineBuiltins {m : Machine} (h : m.Bookkept) (builtins : List Builtin) :
    (builtins.foldl (fun m b => (m.defineStub b.signature.name b.signature).2) m).Bookkept := by
  induction builtins generalizing m with
  | nil => exact h
  | cons b builtins ih => exact ih (h.of_keeps (m.keeps_defineFunction _ (.stub _)))

theorem bookkept_of_empty {m : Machine} (plugins : m.plugins = {}) (stubs : m.stubs = ∅) :
    m.Bookkept := by
  refine ⟨?_, ?_⟩
  · rw [plugins]
    refine ⟨List.nodup_nil, ?_, ?_, ?_, ?_⟩ <;> simp
  · intro key
    simp [plugins, stubs]

theorem bookkept_fresh (console : Console) : (fresh console).Bookkept := by
  unfold fresh
  exact .defineBuiltins (.offerAll (bookkept_of_empty (m := ⟨_, _, _, _, _⟩) rfl rfl) _ _) _

end Machine

namespace Session

open Machine

theorem bookkept_apply {m : Machine} (operation : Operation) (h : m.Bookkept) :
    (operation.apply m).Bookkept := by
  cases operation with
  | load p => exact h.load p
  | loadByName nickname => exact h.loadByName nickname
  | unload nameOrAlias => exact h.unload nameOrAlias
  | offer nickname p => exact h.offer nickname p
  | run fuel source => exact (runs_run fuel source m).preserve (fun _ _ step h => h.step step) h
  | defineFunction name f => exact h.of_keeps (m.keeps_defineFunction name f)
  | register | unregister => exact h.of_keeps (m.keeps_of_extends (.refl m.store) _)

/-- In every session the names of the loaded plugins are distinct; every function of the table is
kept under its name and belongs to a loaded plugin; the noted stubs are stubs of these functions,
with their names and parameters, and of no others; and every alias is in lower case and leads to a
loaded plugin. -/
theorem plugins_bookkept (console : Console) (operations : List Operation) :
    let m := after console operations
    m.plugins.names.Nodup ∧
      (∀ (key : String) (f : OwnedFunction), m.plugins.functions[key]? = some f →
        f.function.name = key ∧ f.owner ∈ m.plugins.names) ∧
      (∀ key : String, key ∈ m.stubs ↔ key ∈ m.plugins.functions) ∧
      (∀ (key : String) (f : OwnedFunction) (id : FunctionId),
        m.plugins.functions[key]? = some f → m.stubs[key]? = some id →
        m.store.functions[id]? =
          some (.stub ⟨f.function.name, f.function.parameters.map (·.name)⟩)) ∧
      (∀ nickname name : String, m.plugins.aliases[nickname]? = some name →
        Text.lowercase nickname = nickname ∧ name ∈ m.plugins.names) := by
  intro m
  have books : m.Bookkept :=
    after_induction bookkept_fresh (fun _ operation => bookkept_apply operation) console operations
  have table := books.table
  refine ⟨table.distinct, ?_, ?_, ?_, ?_⟩
  · exact fun key f hf => ⟨table.named key f hf, table.owned key f hf⟩
  · intro key
    have agree := congrArg Option.isSome (books.stubbed key)
    rw [Option.isSome_map, Option.isSome_map] at agree
    rw [Std.TreeMap.mem_iff_isSome_getElem?, Std.TreeMap.mem_iff_isSome_getElem?, agree]
  · intro key f id hf hs
    have agree := books.stubbed key
    rw [hf, hs, Option.map_some, Option.map_some] at agree
    exact Option.some.inj agree
  · exact fun nickname name ha => ⟨table.lower nickname name ha, table.loaded nickname name ha⟩

end Session

end Scriptlet
