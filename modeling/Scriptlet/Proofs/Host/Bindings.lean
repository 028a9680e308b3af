import Scriptlet.Proofs.Host.Frames
import Scriptlet.Proofs.Host.Ownership

/-! # Global names and the stubs of plugins

A plugin takes over the global names of the functions it exposes, and what such a name stood for
before is not restored when the plugin leaves. All other global names stay bound. -/

namespace Scriptlet

namespace Plugin

def CanLoad (p : Plugin) : Prop :=
  ∀ message, SetupStep.fail message ∉ p.setup

def Exposes (p : Plugin) (name : String) : Prop :=
  name ∈ p.functions.map (·.name)

end Plugin

/-- Building functions keeps their names. -/
theorem FunctionDesign.names_buildAll (designs : List FunctionDesign) (s : Store) :
    (buildAll designs s).1.map (·.name) = designs.map (·.name) := by
  induction designs generalizing s with
  | nil => rfl
  | cons f designs ih => exact congrArg (f.name :: ·) (ih _)

theorem PluginTable.isLoaded_iff {t : PluginTable} {name : String} :
    t.isLoaded name ↔ name ∈ t.names := by
  simp [isLoaded, names]

theorem PluginTable.resolve?_of_mem_names {t : PluginTable} {name : String}
    (h : name ∈ t.names) : t.resolve? name = some name := by
  rw [resolve?, if_pos (isLoaded_iff.mpr h)]

namespace Machine

variable {m m' : Machine} {name : String}

theorem runSetup_eq_ok_iff (m : Machine) (steps : List SetupStep) :
    (m.runSetup steps).1 = .ok () ↔ ∀ message, SetupStep.fail message ∉ steps := by
  induction steps generalizing m with
  | nil => simp [runSetup]
  | cons step steps ih =>
      cases step with
      | register | unregister | define | say => simpa [runSetup] using ih _
      | fail message =>
          have failed : ¬ ∀ text, SetupStep.fail text ∉ SetupStep.fail message :: steps :=
            fun absent => absent message List.mem_cons_self
          simpa [runSetup] using failed

theorem setUp_eq_ok_iff (m : Machine) (p : Plugin) : (m.setUp p).1 = .ok () ↔ p.CanLoad :=
  runSetup_eq_ok_iff _ p.setup

/-- What the name stands for in the global frame. -/
def global? (m : Machine) (name : String) : Option Value :=
  m.store.scopes.local? Scopes.globals name

theorem global?_defineFunction (m : Machine) (other : String) (f : FunctionObject)
    (name : String) :
    (m.defineFunction other f).2.global? name =
      if other = name ∧ Scopes.globals < m.store.scopes.count then
        some (.functionRef m.store.functions.size)
      else m.global? name := by
  have defined := m.store.scopes.local?_define Scopes.globals Scopes.globals other name
    (.functionRef m.store.functions.size)
  simp only [true_and] at defined
  exact defined

theorem global?_defineStub (m : Machine) (other : String) (signature : Signature)
    (name : String) :
    (m.defineStub other signature).2.global? name =
      if other = name ∧ Scopes.globals < m.store.scopes.count then
        some (.functionRef m.store.functions.size)
      else m.global? name :=
  m.global?_defineFunction other (.stub signature) name

theorem removeStub_of_ne (m : Machine) {other : String} (different : other ≠ name) :
    (m.removeStub other).global? name = m.global? name ∧
      (m.removeStub other).stubs[name]? = m.stubs[name]? := by
  have kept : (m.stubs.erase other)[name]? = m.stubs[name]? := by
    simp [Std.TreeMap.getElem?_erase, different]
  rcases m.removeStub_cases other with ⟨-, eq⟩ | ⟨id, -, ⟨-, eq⟩ | ⟨-, eq⟩⟩
  · rw [eq]
    exact ⟨rfl, rfl⟩
  · rw [eq]
    refine ⟨?_, kept⟩
    have freed := m.store.scopes.local?_remove Scopes.globals Scopes.globals other name
    rwa [if_neg fun h => different h.2] at freed
  · rw [eq]
    exact ⟨rfl, kept⟩

/-! ## Names that no plugin exposes -/

/-- The name is bound in the global frame, and there is no stub of a plugin for it. No plugin that
can be loaded by an alias exposes it. -/
structure Secure (name : String) (m : Machine) : Prop where
  bound : (m.global? name).isSome
  unstubbed : m.stubs[name]? = none
  unoffered : ∀ (nickname : String) (p : Plugin), m.plugins.available[nickname]? = some p →
    p.CanLoad → ¬ p.Exposes name

theorem Secure.congr (h : m.Secure name) (scopes : m'.store.scopes = m.store.scopes)
    (stubs : m'.stubs = m.stubs) (available : m'.plugins.available = m.plugins.available) :
    m'.Secure name where
  bound := by
    rw [global?, scopes]
    exact h.bound
  unstubbed := stubs ▸ h.unstubbed
  unoffered := available ▸ h.unoffered

theorem Secure.writeLine (h : m.Secure name) (text : String) : (m.writeLine text).Secure name :=
  h.congr rfl rfl rfl

theorem Secure.defineFunction (h : m.Secure name) (other : String) (f : FunctionObject) :
    (m.defineFunction other f).2.Secure name where
  bound := by
    rw [global?_defineFunction]
    split
    · rfl
    · exact h.bound
  unstubbed := h.unstubbed
  unoffered := h.unoffered

theorem Secure.removeStub (h : m.Secure name) (other : String) :
    (m.removeStub other).Secure name := by
  by_cases same : other = name
  · rcases m.removeStub_cases other with ⟨-, eq⟩ | ⟨id, stubbed, -⟩
    · rw [eq]
      exact h
    · rw [same, h.unstubbed] at stubbed
      cases stubbed
  · obtain ⟨bound, stub⟩ := m.removeStub_of_ne same
    refine ⟨bound ▸ h.bound, stub ▸ h.unstubbed, ?_⟩
    rw [removeStub_plugins]
    exact h.unoffered

theorem Secure.expose (h : m.Secure name) {f : PluginFunction} (other : f.name ≠ name) :
    (m.expose f).Secure name := by
  have defined := h.defineFunction f.name (.stub f.signature)
  refine ⟨defined.bound, ?_, h.unoffered⟩
  have stubs : (m.expose f).stubs = m.stubs.insert f.name m.store.functions.size := rfl
  simp [stubs, Std.TreeMap.getElem?_insert, other, h.unstubbed]

theorem Secure.runSetup (h : m.Secure name) (steps : List SetupStep) :
    (m.runSetup steps).2.Secure name := by
  induction steps generalizing m with
  | nil => exact h
  | cons step steps ih =>
      cases step with
      | register resource entry =>
          exact ih (h.congr (resource.build_extends m.store).scopes rfl rfl)
      | unregister other => exact ih (h.congr rfl rfl rfl)
      | define other f => exact ih (h.defineFunction other f)
      | say text => exact ih (h.writeLine text)
      | fail message => exact h

theorem Secure.enlist (h : m.Secure name) {p : Plugin} (unexposed : ¬ p.Exposes name) :
    (m.enlist p).Secure name := by
  have built : Secure name { m with
      store := (FunctionDesign.buildAll p.functions m.store).2
      plugins := (m.plugins.install p (FunctionDesign.buildAll p.functions m.store).1).2 } :=
    h.congr (FunctionDesign.buildAll_extends p.functions m.store).scopes rfl rfl
  have removed := List.foldlRecOn (m.plugins.ownedBy p.name) Machine.removeStub built
    fun _ secure other _ => secure.removeStub other
  refine List.foldlRecOn (motive := Secure name) _ Machine.expose removed
    fun _ secure f mem => secure.expose ?_
  rintro rfl
  apply unexposed
  rw [Plugin.Exposes, ← FunctionDesign.names_buildAll p.functions m.store]
  exact List.mem_map_of_mem mem

theorem Secure.load (h : m.Secure name) {p : Plugin} (harmless : p.CanLoad → ¬ p.Exposes name) :
    (m.load p).2.Secure name := by
  have setup : (m.setUp p).2.Secure name := (h.writeLine _).runSetup p.setup
  have loads := m.setUp_eq_ok_iff p
  rcases m.load_cases p with ⟨e, ready, result, eq⟩ | ⟨ready, result, eq⟩
  · rw [result] at setup
    rw [eq]
    exact setup.writeLine _
  · rw [result] at setup loads
    rw [eq]
    exact (setup.enlist (harmless (loads.mp rfl))).writeLine _

theorem Secure.loadByName (h : m.Secure name) (nickname : String) :
    (m.loadByName nickname).2.Secure name := by
  unfold Machine.loadByName
  split
  · exact h.writeLine _
  · rename_i p found
    have loaded := h.load (h.unoffered _ p found)
    cases result : m.load p with
    | mk outcome m' =>
        rw [result] at loaded
        cases outcome with
        | error e => exact loaded
        | ok => exact loaded.congr rfl rfl rfl

theorem Secure.unload (h : m.Secure name) (nameOrAlias : String) :
    (m.unload nameOrAlias).2.Secure name := by
  unfold Machine.unload
  split
  · exact h
  · exact List.foldlRecOn (motive := Secure name) _ Machine.removeStub (h.congr rfl rfl rfl)
      fun _ secure other _ => secure.removeStub other

/-! ## Names that a plugin has taken over -/

/-- The name is bound in the global frame to the stub of a plugin function. -/
def BoundToStub (name : String) (m : Machine) : Prop :=
  ∃ id, m.stubs[name]? = some id ∧ m.global? name = some (.functionRef id)

/-- The name is bound in the global frame to the stub of a plugin function, which is one of the
functions from `older` on. -/
def BoundToNewStub (older : Nat) (name : String) (m : Machine) : Prop :=
  ∃ id, older ≤ id ∧ m.stubs[name]? = some id ∧ m.global? name = some (.functionRef id)

theorem BoundToNewStub.boundToStub {older : Nat} (h : m.BoundToNewStub older name) :
    m.BoundToStub name := by
  obtain ⟨id, -, stub, bound⟩ := h
  exact ⟨id, stub, bound⟩

theorem stubs_expose (m : Machine) (f : PluginFunction) (name : String) :
    (m.expose f).stubs[name]? =
      if f.name = name then some m.store.functions.size else m.stubs[name]? := by
  have stubs : (m.expose f).stubs = m.stubs.insert f.name m.store.functions.size := rfl
  simp [stubs, Std.TreeMap.getElem?_insert]

theorem BoundToNewStub.expose {older : Nat} {f : PluginFunction}
    (h : m.BoundToNewStub older name ∨ f.name = name)
    (inside : Scopes.globals < m.store.scopes.count) (old : older ≤ m.store.functions.size) :
    (m.expose f).BoundToNewStub older name := by
  have defined : (m.expose f).global? name =
      if f.name = name ∧ Scopes.globals < m.store.scopes.count then
        some (.functionRef m.store.functions.size)
      else m.global? name := m.global?_defineStub f.name f.signature name
  by_cases same : f.name = name
  · refine ⟨m.store.functions.size, old, ?_, ?_⟩
    · rw [stubs_expose, if_pos same]
    · rw [defined, if_pos ⟨same, inside⟩]
  · obtain ⟨id, new, stub, bound⟩ := h.resolve_right same
    refine ⟨id, new, ?_, ?_⟩
    · rw [stubs_expose, if_neg same, stub]
    · rw [defined, if_neg fun both => same both.1, bound]

theorem boundToNewStub_exposeAll {older : Nat} {functions : List PluginFunction}
    (exposed : m.BoundToNewStub older name ∨ name ∈ functions.map (·.name))
    (inside : Scopes.globals < m.store.scopes.count) (old : older ≤ m.store.functions.size) :
    (functions.foldl expose m).BoundToNewStub older name := by
  induction functions generalizing m with
  | nil => simpa using exposed
  | cons f functions ih =>
      have count : (m.expose f).store.scopes.count = m.store.scopes.count :=
        m.store.scopes.count_define _ _ _
      have size : (m.expose f).store.functions.size = m.store.functions.size + 1 :=
        Array.size_push _
      refine ih ?_ (count ▸ inside) (size ▸ Nat.le_succ_of_le old)
      rcases exposed with bound | mem
      · exact .inl (.expose (.inl bound) inside old)
      · rcases List.mem_cons.mp mem with here | later
        · exact .inl (.expose (.inr here.symm) inside old)
        · exact .inr later

/-- Exposing functions leaves the stubs of other names as they are. -/
theorem stubs_exposeAll_of_notMem {functions : List PluginFunction}
    (unexposed : name ∉ functions.map (·.name)) :
    (functions.foldl expose m).stubs[name]? = m.stubs[name]? := by
  induction functions generalizing m with
  | nil => rfl
  | cons f functions ih =>
      obtain ⟨other, later⟩ : name ≠ f.name ∧ name ∉ functions.map (·.name) := by
        simpa using unexposed
      rw [List.foldl_cons, ih later, stubs_expose, if_neg other.symm]

/-- When the stub of a name is forgotten, the name is free. -/
theorem global?_removeStubs {names : List String}
    (h : m.global? name = none ∨ (m.BoundToStub name ∧ name ∈ names)) :
    (names.foldl removeStub m).global? name = none := by
  induction names generalizing m with
  | nil => simpa using h
  | cons other names ih =>
      refine ih ?_
      by_cases same : other = name
      · subst same
        left
        rcases m.removeStub_cases other with ⟨absent, eq⟩ | ⟨id, noted, ⟨-, eq⟩ | ⟨elsewhere, eq⟩⟩
        · rcases h with free | ⟨⟨id, stub, -⟩, -⟩
          · rw [eq]
            exact free
          · rw [absent] at stub
            cases stub
        · rw [eq]
          exact (m.store.scopes.local?_remove _ _ other other).trans (if_pos ⟨rfl, rfl⟩)
        · rcases h with free | ⟨⟨id', stub, bound⟩, -⟩
          · rw [eq]
            exact free
          · rw [noted] at stub
            exact absurd (Option.some.inj stub ▸ bound) elsewhere
      · obtain ⟨bound, stub⟩ := m.removeStub_of_ne same
        rw [bound, BoundToStub, bound, stub]
        refine h.imp_right fun ⟨stubbed, mem⟩ => ⟨stubbed, ?_⟩
        exact (List.mem_cons.mp mem).resolve_left (Ne.symm same)

/-- What forgetting stubs does not touch. -/
theorem removeStubs_eq (m : Machine) (names : List String) :
    names.foldl removeStub m = { m with
      store := { m.store with scopes := (names.foldl removeStub m).store.scopes }
      stubs := (names.foldl removeStub m).stubs } := by
  induction names generalizing m with
  | nil => rfl
  | cons name names ih =>
      have rest := ih (m.removeStub name)
      rcases m.removeStub_cases name with ⟨-, eq⟩ | ⟨id, -, ⟨-, eq⟩ | ⟨-, eq⟩⟩
      all_goals
        rw [List.foldl_cons, rest]
        simp only [eq]

theorem stubs_removeStubs (m : Machine) (names : List String) (name : String) :
    (names.foldl removeStub m).stubs[name]? = if name ∈ names then none else m.stubs[name]? := by
  induction names generalizing m with
  | nil => simp
  | cons other names ih =>
      rw [List.foldl_cons, ih]
      by_cases same : other = name
      · subst same
        have forgotten : (m.removeStub other).stubs[other]? = none := by
          rcases m.removeStub_cases other with ⟨absent, eq⟩ | ⟨id, -, ⟨-, eq⟩ | ⟨-, eq⟩⟩
          · rw [eq, absent]
          · simp [eq]
          · simp [eq]
        simp [forgotten]
      · have kept := (m.removeStub_of_ne same).2
        simp [kept, Ne.symm same]

/-- When stubs are forgotten, a name stays bound that is not concerned or not bound to its stub. -/
theorem global?_removeStubs_of_not {names : List String}
    (h : ¬ (m.BoundToStub name ∧ name ∈ names)) :
    (names.foldl removeStub m).global? name = m.global? name := by
  induction names generalizing m with
  | nil => rfl
  | cons other names ih =>
      rw [List.foldl_cons]
      by_cases same : other = name
      · subst same
        have unbound : ¬ m.BoundToStub other := fun bound => h ⟨bound, List.mem_cons_self⟩
        rcases m.removeStub_cases other with ⟨-, eq⟩ | ⟨id, noted, ⟨here, -⟩ | ⟨-, eq⟩⟩
        · rw [eq]
          exact ih fun both => unbound both.1
        · exact absurd ⟨id, noted, here⟩ unbound
        · have forgotten : ¬ (m.removeStub other).BoundToStub other := by
            rintro ⟨id, stub, -⟩
            simp [eq] at stub
          rw [ih fun both => forgotten both.1, eq]
          rfl
      · obtain ⟨bound, stub⟩ := m.removeStub_of_ne same
        rw [ih, bound]
        rw [BoundToStub, bound, stub]
        exact fun both => h ⟨both.1, List.mem_cons_of_mem _ both.2⟩

theorem boundToNewStub_enlist (m : Machine) {p : Plugin} (exposes : p.Exposes name)
    (inside : Scopes.globals < m.store.scopes.count) :
    (m.enlist p).BoundToNewStub m.store.functions.size name := by
  let built : Machine := { m with
    store := (FunctionDesign.buildAll p.functions m.store).2
    plugins := (m.plugins.install p (FunctionDesign.buildAll p.functions m.store).1).2 }
  have names := FunctionDesign.names_buildAll p.functions m.store
  have grown := FunctionDesign.buildAll_extends p.functions m.store
  have varies := foldl_variesInGlobals removeStub_variesInGlobals (m.plugins.ownedBy p.name) built
  have count := varies.scopes.count.trans (congrArg Scopes.count grown.scopes)
  have size := congrArg (·.store.functions.size) (built.removeStubs_eq (m.plugins.ownedBy p.name))
  refine boundToNewStub_exposeAll (.inr (names ▸ exposes)) (Nat.lt_of_lt_of_eq inside count.symm) ?_
  exact Nat.le_trans (size_le_of_kept grown.functions) (Nat.le_of_eq size.symm)

theorem mem_ownedBy_enlist (m : Machine) {p : Plugin} (exposes : p.Exposes name) :
    name ∈ (m.enlist p).plugins.ownedBy p.name := by
  rw [Plugin.Exposes, ← FunctionDesign.names_buildAll p.functions m.store] at exposes
  obtain ⟨f, last⟩ := Option.isSome_iff_exists.mp (isSome_lastNamed.mpr (List.mem_map.mp exposes))
  refine PluginTable.mem_ownedBy.mpr ⟨⟨p.name, f⟩, ?_, rfl⟩
  rw [enlist_plugins, PluginTable.getElem?_install _ _ _ none, PluginEvent.update, last]
  rfl

/-- A plugin that is loaded and unloaded frees the names of its functions, also those that stood for
something before. -/
theorem global?_unload_load (m : Machine) {p : Plugin} (loads : p.CanLoad)
    (exposes : p.Exposes name) (inside : Scopes.globals < m.store.scopes.count) :
    ((m.load p).2.unload p.name).2.global? name = none := by
  have setup := (m.setUp_eq_ok_iff p).mpr loads
  rcases m.load_cases p with ⟨e, ready, result, -⟩ | ⟨ready, result, eq⟩
  · rw [result] at setup
    cases setup
  · have count := (m.setUp_variesInGlobals p).scopes.count
    rw [result] at count
    have found : (m.load p).2.plugins.resolve? p.name = some p.name :=
      PluginTable.resolve?_of_mem_names (mem_names_of_load (congrArg Prod.fst eq))
    rw [eq] at found ⊢
    unfold unload
    rw [found]
    refine global?_removeStubs (.inr ⟨?_, ready.mem_ownedBy_enlist exposes⟩)
    exact (ready.boundToNewStub_enlist exposes (Nat.lt_of_lt_of_eq inside count.symm)).boundToStub

end Machine

end Scriptlet
