import Scriptlet.Host.Machine
import Scriptlet.Proofs.Text.Lowercase
import Scriptlet.Proofs.Value.Extension

/-! # Bookkeeping of plugins

The table of plugins and the stubs that an interpreter has bound for their functions are changed
apart from each other, and always agree. -/

namespace Scriptlet

/-! ## The table of plugins -/

namespace PluginTable

/-- What the table keeps about itself: names are loaded once, and functions and aliases belong to
loaded plugins. -/
structure Consistent (t : PluginTable) : Prop where
  distinct : t.names.Nodup
  named : ∀ (key : String) (f : OwnedFunction), t.functions[key]? = some f → f.function.name = key
  owned : ∀ (key : String) (f : OwnedFunction), t.functions[key]? = some f → f.owner ∈ t.names
  lower : ∀ nickname name : String, t.aliases[nickname]? = some name →
    Text.lowercase nickname = nickname
  loaded : ∀ nickname name : String, t.aliases[nickname]? = some name → name ∈ t.names

theorem names_remove (t : PluginTable) (name : String) :
    (t.remove name).names = t.names.filter (· ≠ name) := by
  simp only [names, remove, List.filter_map]
  rfl

theorem mem_names_remove {t : PluginTable} {name other : String} :
    other ∈ (t.remove name).names ↔ other ∈ t.names ∧ other ≠ name := by
  rw [names_remove, List.mem_filter, decide_eq_true_iff]

theorem getElem?_functions_remove {t : PluginTable} {name key : String} :
    (t.remove name).functions[key]? = t.functions[key]?.filter (·.owner ≠ name) :=
  Std.TreeMap.getElem?_filter'

theorem getElem?_aliases_remove {t : PluginTable} {name key : String} :
    (t.remove name).aliases[key]? = t.aliases[key]?.filter (· ≠ name) :=
  Std.TreeMap.getElem?_filter'

theorem Consistent.remove {t : PluginTable} (h : t.Consistent) (name : String) :
    (t.remove name).Consistent where
  distinct := by
    rw [names_remove]
    exact h.distinct.filter _
  named key f hf := by
    rw [getElem?_functions_remove, Option.filter_eq_some_iff] at hf
    exact h.named key f hf.1
  owned key f hf := by
    rw [getElem?_functions_remove, Option.filter_eq_some_iff] at hf
    exact mem_names_remove.mpr ⟨h.owned key f hf.1, by simpa using hf.2⟩
  lower nickname plugin ha := by
    rw [getElem?_aliases_remove, Option.filter_eq_some_iff] at ha
    exact h.lower nickname plugin ha.1
  loaded nickname plugin ha := by
    rw [getElem?_aliases_remove, Option.filter_eq_some_iff] at ha
    exact mem_names_remove.mpr ⟨h.loaded nickname plugin ha.1, by simpa using ha.2⟩

/-- Enters functions of one owner, each under its name. -/
def enter (owner : String) (table : Table OwnedFunction) (functions : List PluginFunction) :
    Table OwnedFunction :=
  functions.foldl (fun fs f => fs.insert f.name ⟨owner, f⟩) table

/-- What is found in a table after functions were entered is one of them or was there before. -/
theorem getElem?_enter {owner key : String} {table : Table OwnedFunction}
    {functions : List PluginFunction} {f : OwnedFunction}
    (h : (enter owner table functions)[key]? = some f) :
    (f.owner = owner ∧ f.function.name = key) ∨ table[key]? = some f := by
  induction functions generalizing table with
  | nil => exact .inr h
  | cons g functions ih =>
      rcases ih h with new | old
      · exact .inl new
      · simp only [Std.TreeMap.getElem?_insert, Std.compare_eq_iff_eq] at old
        split at old
        case isTrue same =>
            obtain rfl := Option.some.inj old
            exact .inl ⟨rfl, same⟩
        case isFalse => exact .inr old

theorem names_install (t : PluginTable) (p : Plugin) (functions : List PluginFunction) :
    (t.install p functions).2.names = (t.remove p.name).names ++ [p.name] :=
  List.map_append

theorem Consistent.install {t : PluginTable} (h : t.Consistent) (p : Plugin)
    (functions : List PluginFunction) : (t.install p functions).2.Consistent := by
  have kept := h.remove p.name
  have names := t.names_install p functions
  have entered : (t.install p functions).2.functions =
    enter p.name (t.remove p.name).functions functions := rfl
  refine ⟨?_, ?_, ?_, kept.lower, ?_⟩
  · rw [names, List.nodup_append]
    refine ⟨kept.distinct, by simp, ?_⟩
    intro name mem other mem'
    obtain rfl := List.mem_singleton.mp mem'
    exact (mem_names_remove.mp mem).2
  · intro key f hf
    rw [entered] at hf
    rcases getElem?_enter hf with ⟨-, name⟩ | old
    · exact name
    · exact kept.named key f old
  · intro key f hf
    rw [entered] at hf
    rw [names, List.mem_append, List.mem_singleton]
    rcases getElem?_enter hf with ⟨owner, -⟩ | old
    · exact .inr owner
    · exact .inl (kept.owned key f old)
  · intro nickname name ha
    rw [names, List.mem_append]
    exact .inl (kept.loaded nickname name ha)

theorem getElem?_aliases_recordAlias {t : PluginTable} {nickname name key : String} :
    (t.recordAlias nickname name).aliases[key]? =
      if Text.lowercase nickname = key then some name else t.aliases[key]? := by
  simp [recordAlias, Std.TreeMap.getElem?_insert]

theorem Consistent.recordAlias {t : PluginTable} (h : t.Consistent) (nickname : String)
    {name : String} (isLoaded : name ∈ t.names) : (t.recordAlias nickname name).Consistent := by
  refine ⟨h.distinct, h.named, h.owned, ?_, ?_⟩
  · intro key plugin ha
    rw [getElem?_aliases_recordAlias] at ha
    split at ha
    case isTrue same => rw [← same, Text.lowercase_lowercase]
    case isFalse => exact h.lower key plugin ha
  · intro key plugin ha
    rw [getElem?_aliases_recordAlias] at ha
    split at ha
    case isTrue =>
        obtain rfl := Option.some.inj ha
        exact isLoaded
    case isFalse => exact h.loaded key plugin ha

theorem mem_ownedBy {t : PluginTable} {name key : String} :
    key ∈ t.ownedBy name ↔ ∃ f, t.functions[key]? = some f ∧ f.owner = name := by
  simp [ownedBy, Std.TreeMap.mem_toList_iff_getElem?_eq_some]

end PluginTable

/-! ## Stubs -/

namespace Machine

/-- The stubs that are noted are stubs of the given functions, and of all of them. -/
def Stubbed (m : Machine) (functions : Table OwnedFunction) : Prop :=
  ∀ key : String, m.stubs[key]?.map (m.store.functions[·]?) =
    functions[key]?.map fun f => some (.stub f.function.signature)

theorem Stubbed.mono {m m' : Machine} {functions : Table OwnedFunction} (h : m.Stubbed functions)
    (stubs : m'.stubs = m.stubs)
    (kept : ∀ (id : FunctionId) (f : FunctionObject), m.store.functions[id]? = some f →
      m'.store.functions[id]? = some f) : m'.Stubbed functions := by
  intro key
  have before := h key
  rw [stubs]
  cases hs : m.stubs[key]? with
  | none => rw [← before, hs]; rfl
  | some id =>
      cases hf : functions[key]? with
      | none => simp [hs, hf] at before
      | some f =>
          simp only [hs, hf, Option.map_some, Option.some.injEq] at before ⊢
          exact kept id _ before

theorem Stubbed.congr {m : Machine} {functions functions' : Table OwnedFunction}
    (h : m.Stubbed functions) (same : ∀ key : String, functions'[key]? = functions[key]?) :
    m.Stubbed functions' := by
  intro key
  rw [same]
  exact h key

/-- What forgetting a stub does: nothing if there is none, and otherwise the name is freed in the
global frame only if it is still bound to the stub. -/
theorem removeStub_cases (m : Machine) (name : String) :
    (m.stubs[name]? = none ∧ m.removeStub name = m) ∨
      ∃ id, m.stubs[name]? = some id ∧
        ((m.store.scopes.local? Scopes.globals name = some (.functionRef id) ∧
            m.removeStub name = { m with
              store := { m.store with scopes := m.store.scopes.remove Scopes.globals name }
              stubs := m.stubs.erase name }) ∨
          (m.store.scopes.local? Scopes.globals name ≠ some (.functionRef id) ∧
            m.removeStub name = { m with stubs := m.stubs.erase name })) := by
  fun_cases removeStub m name with
  | case1 absent => exact .inl ⟨absent, rfl⟩
  | case2 m' bound here noted => exact .inr ⟨bound, noted, .inl ⟨here, rfl⟩⟩
  | case3 id noted m' bound here other =>
      refine .inr ⟨id, noted, .inr ⟨?_, rfl⟩⟩
      rw [show m.store.scopes.local? Scopes.globals name = some (.functionRef bound) from here]
      simpa using other
  | case4 id noted m' other => exact .inr ⟨id, noted, .inr ⟨other id, rfl⟩⟩

theorem removeStub_plugins (m : Machine) (name : String) :
    (m.removeStub name).plugins = m.plugins := by
  rcases m.removeStub_cases name with ⟨-, eq⟩ | ⟨id, -, ⟨-, eq⟩ | ⟨-, eq⟩⟩
  all_goals rw [eq]

theorem Stubbed.removeStub {m : Machine} {functions : Table OwnedFunction}
    (h : m.Stubbed functions) (name : String) :
    (m.removeStub name).Stubbed (functions.erase name) := by
  intro key
  have before := h key
  rw [Std.TreeMap.getElem?_erase]
  by_cases same : name = key
  · subst same
    rcases m.removeStub_cases name with ⟨absent, eq⟩ | ⟨id, -, ⟨-, eq⟩ | ⟨-, eq⟩⟩
    · simp [eq, absent]
    · simp [eq]
    · simp [eq]
  · rcases m.removeStub_cases name with ⟨-, eq⟩ | ⟨id, -, ⟨-, eq⟩ | ⟨-, eq⟩⟩
    all_goals simpa [eq, Std.TreeMap.getElem?_erase, same] using before

theorem removeStubs_plugins (m : Machine) (names : List String) :
    (names.foldl removeStub m).plugins = m.plugins := by
  induction names generalizing m with
  | nil => rfl
  | cons name names ih => rw [List.foldl_cons, ih, removeStub_plugins]

theorem Stubbed.removeStubs {m : Machine} {functions : Table OwnedFunction}
    (h : m.Stubbed functions) (names : List String) :
    (names.foldl Machine.removeStub m).Stubbed
      (names.foldl (fun fs name => fs.erase name) functions) := by
  induction names generalizing m functions with
  | nil => exact h
  | cons name names ih => exact ih (h.removeStub name)

theorem getElem?_eraseAll {functions : Table OwnedFunction} {names : List String} {key : String} :
    (names.foldl (fun fs name => fs.erase name) functions)[key]? =
      if key ∈ names then none else functions[key]? := by
  induction names generalizing functions with
  | nil => simp
  | cons name names ih =>
      rw [List.foldl_cons, ih]
      by_cases later : key ∈ names
      · simp [later]
      · by_cases same : name = key
        · simp [same]
        · have here : key ∉ name :: names := by simp [later, Ne.symm same]
          rw [if_neg later, if_neg here]
          simp [Std.TreeMap.getElem?_erase, same]

/-- Forgetting the stubs of a plugin's functions agrees with dropping the functions. -/
theorem Stubbed.removePlugin {m : Machine} {t : PluginTable} (h : m.Stubbed t.functions)
    (name : String) :
    ((t.ownedBy name).foldl Machine.removeStub m).Stubbed (t.remove name).functions := by
  refine (h.removeStubs (t.ownedBy name)).congr fun key => ?_
  rw [getElem?_eraseAll, PluginTable.getElem?_functions_remove]
  cases hf : t.functions[key]? with
  | none => simp
  | some f =>
      by_cases owned : f.owner = name
      · have mem : key ∈ t.ownedBy name := PluginTable.mem_ownedBy.mpr ⟨f, hf, owned⟩
        simp [mem, owned]
      · have notMem : key ∉ t.ownedBy name := by
          intro mem
          obtain ⟨g, hg, owner⟩ := PluginTable.mem_ownedBy.mp mem
          rw [hf] at hg
          exact owned (Option.some.inj hg ▸ owner)
        simp [notMem, owned]

/-- A function that is exposed again, or exposed by another plugin, gets a new stub, and only that
one stays noted. -/
theorem Stubbed.expose {m : Machine} {functions : Table OwnedFunction} (h : m.Stubbed functions)
    (owner : String) (f : PluginFunction) :
    (m.expose f).Stubbed (functions.insert f.name ⟨owner, f⟩) := by
  have stubs : (m.expose f).stubs = m.stubs.insert f.name m.store.functions.size := rfl
  have objects : (m.expose f).store.functions = m.store.functions.push (.stub f.signature) := rfl
  have kept : (m.defineStub f.name f.signature).2.Stubbed functions :=
    h.mono rfl (m.store.addFunction_extends (.stub f.signature)).functions
  intro key
  rw [stubs, objects]
  by_cases same : f.name = key
  · simp [same]
  · have before : m.stubs[key]?.map ((m.store.functions.push (.stub f.signature))[·]?) =
        functions[key]?.map fun f => some (.stub f.function.signature) := kept key
    simpa [Std.TreeMap.getElem?_insert, same] using before

theorem Stubbed.exposeAll {m : Machine} {table : Table OwnedFunction} (h : m.Stubbed table)
    (owner : String) (functions : List PluginFunction) :
    (functions.foldl Machine.expose m).Stubbed (PluginTable.enter owner table functions) := by
  induction functions generalizing m table with
  | nil => exact h
  | cons f functions ih => exact ih (h.expose owner f)

theorem exposeAll_plugins (m : Machine) (functions : List PluginFunction) :
    (functions.foldl expose m).plugins = m.plugins := by
  induction functions generalizing m with
  | nil => rfl
  | cons f functions ih => exact ih (m.expose f)

/-! ## Offers -/

/-- A plugin that can be loaded after a plugin was offered is that one or could be loaded before. -/
theorem available_offer {t : PluginTable} {nickname other : String} {p q : Plugin}
    (h : (t.offer nickname p).available[other]? = some q) :
    q = p ∨ t.available[other]? = some q := by
  simp only [PluginTable.offer, Std.TreeMap.getElem?_insert] at h
  split at h
  · exact .inl (Option.some.inj h).symm
  · exact .inr h

theorem available_offerAll {t : PluginTable} {nicknames : List String} {p q : Plugin}
    {nickname : String}
    (h : (nicknames.foldl (fun t nickname => t.offer nickname p) t).available[nickname]? = some q) :
    q = p ∨ t.available[nickname]? = some q := by
  induction nicknames generalizing t with
  | nil => exact .inr h
  | cons other nicknames ih =>
      rcases ih h with new | old
      · exact .inl new
      · exact available_offer old

/-! ## Loading and unloading -/

/-- The second interpreter has the plugins and the stubs of the first, and every reference to a
function leads to the same one. -/
structure Keeps (m m' : Machine) : Prop where
  plugins : m'.plugins = m.plugins
  stubs : m'.stubs = m.stubs
  functions : ∀ (id : FunctionId) (f : FunctionObject), m.store.functions[id]? = some f →
    m'.store.functions[id]? = some f

theorem Keeps.refl (m : Machine) : m.Keeps m :=
  ⟨rfl, rfl, fun _ _ h => h⟩

theorem Keeps.trans {m m' m'' : Machine} (h : m.Keeps m') (h' : m'.Keeps m'') : m.Keeps m'' where
  plugins := h'.plugins.trans h.plugins
  stubs := h'.stubs.trans h.stubs
  functions id f hf := h'.functions id f (h.functions id f hf)

theorem keeps_of_extends (m : Machine) {store : Store} (h : m.store.Extends store)
    (registry : Registry) : m.Keeps { m with store, registry } :=
  ⟨rfl, rfl, h.functions⟩

theorem keeps_defineFunction (m : Machine) (name : String) (f : FunctionObject) :
    m.Keeps (m.defineFunction name f).2 :=
  ⟨rfl, rfl, (m.store.addFunction_extends (f.placed m.store.scopes)).functions⟩

theorem keeps_writeLine (m : Machine) (text : String) : m.Keeps (m.writeLine text) :=
  ⟨rfl, rfl, fun _ _ h => h⟩

theorem keeps_runSetup (m : Machine) (steps : List SetupStep) :
    m.Keeps (m.runSetup steps).2 := by
  induction steps generalizing m with
  | nil => exact .refl m
  | cons step steps ih =>
      cases step with
      | register resource entry =>
          exact (m.keeps_of_extends (resource.build_extends m.store) _).trans (ih _)
      | unregister name => exact (m.keeps_of_extends (.refl m.store) _).trans (ih _)
      | define name f => exact (m.keeps_defineFunction name f).trans (ih _)
      | say text => exact (m.keeps_writeLine text).trans (ih _)
      | fail message => exact .refl m

def enlist (m : Machine) (p : Plugin) : Machine :=
  let (functions, store) := FunctionDesign.buildAll p.functions m.store
  let (replaced, plugins) := m.plugins.install p functions
  functions.foldl expose (replaced.foldl removeStub { m with store, plugins })

/-- Announces a plugin and runs its setup. -/
def setUp (m : Machine) (p : Plugin) : Except PluginError Unit × Machine :=
  (m.writeLine ("Loading plugin: " ++ p.name ++ " v" ++ p.version)).runSetup p.setup

theorem keeps_setUp (m : Machine) (p : Plugin) : m.Keeps (m.setUp p).2 :=
  (m.keeps_writeLine _).trans (keeps_runSetup _ p.setup)

/-- What loading does: the setup runs, and if it does not fail the plugin is taken in. -/
theorem load_cases (m : Machine) (p : Plugin) :
    (∃ e ready, m.setUp p = (.error e, ready) ∧ m.load p =
        (.error e, ready.writeLine ("Failed to load plugin '" ++ p.name ++ "': " ++ e.text))) ∨
      ∃ ready, m.setUp p = (.ok (), ready) ∧ m.load p =
        (.ok (), (ready.enlist p).writeLine ("Plugin " ++ p.name ++ " loaded successfully")) := by
  cases setup : m.setUp p with
  | mk result ready =>
      unfold setUp at setup
      cases result with
      | error e => exact .inl ⟨e, ready, rfl, by simp only [load, setup]⟩
      | ok => exact .inr ⟨ready, rfl, by simp only [load, setup, enlist]⟩

theorem enlist_plugins (m : Machine) (p : Plugin) : (m.enlist p).plugins =
    (m.plugins.install p (FunctionDesign.buildAll p.functions m.store).1).2 := by
  simp only [enlist, exposeAll_plugins, removeStubs_plugins]

/-! ## The invariant -/

/-- The table of plugins is consistent, and the stubs are those of its functions. -/
structure Bookkept (m : Machine) : Prop where
  table : m.plugins.Consistent
  stubbed : m.Stubbed m.plugins.functions

theorem Bookkept.of_keeps {m m' : Machine} (h : m.Bookkept) (kept : m.Keeps m') : m'.Bookkept := by
  refine ⟨?_, ?_⟩
  · rw [kept.plugins]
    exact h.table
  · rw [kept.plugins]
    exact h.stubbed.mono kept.stubs kept.functions

theorem Bookkept.writeLine {m : Machine} (h : m.Bookkept) (text : String) :
    (m.writeLine text).Bookkept :=
  h.of_keeps (m.keeps_writeLine text)

theorem Bookkept.enlist {m : Machine} (h : m.Bookkept) (p : Plugin) : (m.enlist p).Bookkept := by
  have plugins := m.enlist_plugins p
  refine ⟨?_, ?_⟩
  · rw [plugins]
    exact h.table.install p _
  · rw [plugins]
    have built : Machine.Stubbed { m with
        store := (FunctionDesign.buildAll p.functions m.store).2
        plugins := (m.plugins.install p (FunctionDesign.buildAll p.functions m.store).1).2 }
        m.plugins.functions :=
      h.stubbed.mono rfl (FunctionDesign.buildAll_extends p.functions m.store).functions
    exact (built.removePlugin p.name).exposeAll p.name _

theorem Bookkept.load {m : Machine} (h : m.Bookkept) (p : Plugin) : (m.load p).2.Bookkept := by
  have kept := m.keeps_setUp p
  rcases m.load_cases p with ⟨e, ready, setup, eq⟩ | ⟨ready, setup, eq⟩
  · rw [setup] at kept
    rw [eq]
    exact (h.of_keeps kept).writeLine _
  · rw [setup] at kept
    rw [eq]
    exact ((h.of_keeps kept).enlist p).writeLine _

/-- A plugin that could be loaded is among those that are. -/
theorem mem_names_of_load {m : Machine} {p : Plugin} (h : (m.load p).1 = .ok ()) :
    p.name ∈ (m.load p).2.plugins.names := by
  rcases m.load_cases p with ⟨e, ready, -, eq⟩ | ⟨ready, -, eq⟩
  · rw [eq] at h
    cases h
  · rw [eq]
    show p.name ∈ (ready.enlist p).plugins.names
    rw [enlist_plugins, PluginTable.names_install]
    exact List.mem_append_right _ (List.mem_singleton_self _)

theorem Bookkept.loadByName {m : Machine} (h : m.Bookkept) (nickname : String) :
    (m.loadByName nickname).2.Bookkept := by
  unfold Machine.loadByName
  split
  · exact h.writeLine _
  · rename_i p _
    have loaded := h.load p
    have mem := @mem_names_of_load m p
    cases hl : m.load p with
    | mk result m' =>
        rw [hl] at loaded mem
        cases result with
        | error e => exact loaded
        | ok => exact ⟨loaded.table.recordAlias nickname (mem rfl), loaded.stubbed⟩

theorem Bookkept.unload {m : Machine} (h : m.Bookkept) (nameOrAlias : String) :
    (m.unload nameOrAlias).2.Bookkept := by
  unfold Machine.unload
  split
  · exact h
  · rename_i name _
    let dropped := Machine.writeLine { m with plugins := m.plugins.remove name }
      ("Plugin " ++ name ++ " unloaded")
    have stubbed : dropped.Stubbed m.plugins.functions := h.stubbed.mono rfl fun _ _ h => h
    refine ⟨?_, ?_⟩
    · rw [removeStubs_plugins]
      exact h.table.remove name
    · rw [removeStubs_plugins]
      exact stubbed.removePlugin name

theorem Bookkept.offer {m : Machine} (h : m.Bookkept) (nickname : String) (p : Plugin) :
    Bookkept { m with plugins := m.plugins.offer nickname p } :=
  ⟨⟨h.table.distinct, h.table.named, h.table.owned, h.table.lower, h.table.loaded⟩, h.stubbed⟩

end Machine

end Scriptlet
