import Scriptlet.Proofs.Host.Bookkeeping
import Scriptlet.Proofs.Value.Objects

/-! # Hosts and objects

Functions of the host see their arguments and hold values of their own. Those that make no
references up yield values that exist, and with them plugins come and go, and are called, without
leaving a sound interpreter unsound. -/

namespace Scriptlet

open Store

/-! ## Functions of the host -/

namespace NativeFunction

/-- From now on, the function yields values that exist whenever its arguments do. -/
def Honest (s : Store) (run : NativeFunction) : Prop :=
  ∀ t : Store, s.Within t → ∀ args : List Argument, (∀ arg ∈ args, t.Has arg.value) →
    ∀ (console : Console) (v : Value), (run args console).1 = .ok v → t.Has v

/-- From now on, what is made of a value that exists is honest. -/
def HonestMaker (s : Store) (make : Value → NativeFunction) : Prop :=
  ∀ t : Store, s.Within t → ∀ v : Value, t.Has v → (make v).Honest t

variable {s t : Store}

theorem Honest.mono {run : NativeFunction} (h : run.Honest s) (within : s.Within t) :
    run.Honest t :=
  fun u later => h u (within.trans later)

/-- What a call yields exists, also if the function fails: then it is null. -/
theorem Honest.has_result {run : NativeFunction} (h : run.Honest s) {args : List Argument}
    (exist : ∀ arg ∈ args, s.Has arg.value) (console : Console)
    (report : NativeError → Console → Console) :
    s.Has (match run args console with
      | (.ok value, console) => (value, console)
      | (.error e, console) => (.null, report e console)).1 := by
  have yields := h s (.refl s) args exist console
  cases result : run args console with
  | mk outcome console =>
      rw [result] at yields
      cases outcome with
      | ok v => exact yields v rfl
      | error e => trivial

theorem HonestMaker.mono {make : Value → NativeFunction} (h : HonestMaker s make)
    (within : s.Within t) : HonestMaker t make :=
  fun u later => h u (within.trans later)

end NativeFunction

open NativeFunction

/-! ## Plugins -/

/-- The values that the design of a function holds exist, and what it is built to is honest. -/
structure FunctionDesign.Fits (s : Store) (f : FunctionDesign) : Prop where
  resource : f.resource.Fits s
  parameters : ∀ p ∈ f.parameters, ∀ design ∈ p.default, design.Fits s
  run : HonestMaker s f.run

/-- A function is registered with a value that exists, and is honest. -/
def SetupStep.Fits (s : Store) : SetupStep → Prop
  | .register resource entry => resource.Fits s ∧ HonestMaker s fun v => (entry v).run
  | .unregister _ | .define .. | .say _ | .fail _ => True

/-- All values that a plugin holds exist, and all its functions are honest. -/
structure Plugin.Fits (s : Store) (p : Plugin) : Prop where
  setup : ∀ step ∈ p.setup, step.Fits s
  functions : ∀ f ∈ p.functions, f.Fits s

section

variable {s t : Store} (within : s.Within t)
include within

theorem FunctionDesign.Fits.mono {f : FunctionDesign} (h : f.Fits s) : f.Fits t where
  resource := h.resource.mono within
  parameters p mem design isDefault := (h.parameters p mem design isDefault).mono within
  run := h.run.mono within

theorem SetupStep.Fits.mono {step : SetupStep} (h : step.Fits s) : step.Fits t := by
  cases step with
  | register resource entry => exact ⟨h.1.mono within, h.2.mono within⟩
  | unregister | define | say | fail => trivial

theorem Plugin.Fits.mono {p : Plugin} (h : p.Fits s) : p.Fits t where
  setup step mem := (h.setup step mem).mono within
  functions f mem := (h.functions f mem).mono within

end

theorem Store.Sound.buildParameters {s : Store} (h : s.Sound) {ps : List (Parameter Blueprint)}
    (fits : ∀ p ∈ ps, ∀ design ∈ p.default, design.Fits s) :
    (Parameter.buildAll ps s).2.Sound := by
  induction ps generalizing s with
  | nil => exact h
  | cons p ps ih =>
      obtain ⟨first, rest⟩ := List.forall_mem_cons.mp fits
      have within := (p.build_allocates s).within
      have built : (p.build s).2.Sound := by
        unfold Parameter.build
        split
        · exact h
        · rename_i design isDefault
          exact (h.build design (first design isDefault)).1
      exact ih built fun q mem design isDefault => (rest q mem design isDefault).mono within

theorem Store.Sound.buildFunction {s : Store} (h : s.Sound) {f : FunctionDesign}
    (fits : f.Fits s) : (f.build s).2.Sound ∧ (f.build s).1.run.Honest (f.build s).2 := by
  obtain ⟨sound, resource⟩ := h.build f.resource fits.resource
  have later := (f.resource.build_allocates s).within
  have within := (Parameter.buildAll_allocates f.parameters (f.resource.build s).2).within
  refine ⟨sound.buildParameters fun p mem design isDefault => ?_, ?_⟩
  · exact (fits.parameters p mem design isDefault).mono later
  · exact (fits.run _ later _ resource).mono within

theorem Store.Sound.buildFunctions {s : Store} (h : s.Sound) {fs : List FunctionDesign}
    (fits : ∀ f ∈ fs, f.Fits s) :
    (FunctionDesign.buildAll fs s).2.Sound ∧
      ∀ f ∈ (FunctionDesign.buildAll fs s).1, f.run.Honest (FunctionDesign.buildAll fs s).2 := by
  induction fs generalizing s with
  | nil => exact ⟨h, nofun⟩
  | cons f fs ih =>
      obtain ⟨first, rest⟩ := List.forall_mem_cons.mp fits
      obtain ⟨sound, honest⟩ := h.buildFunction first
      have within := (f.build_allocates s).within
      obtain ⟨sound, honests⟩ := ih sound fun g mem => (rest g mem).mono within
      refine ⟨sound, List.forall_mem_cons.mpr ⟨?_, honests⟩⟩
      exact honest.mono (FunctionDesign.buildAll_allocates fs _).within

def PluginTable.AllFit (s : Store) (t : PluginTable) : Prop :=
  ∀ (nickname : String) (p : Plugin), t.available[nickname]? = some p → p.Fits s

theorem PluginTable.AllFit.offerAll {s : Store} {t : PluginTable} (h : t.AllFit s) {p : Plugin}
    (fits : p.Fits s) (nicknames : List String) :
    (nicknames.foldl (fun t nickname => t.offer nickname p) t).AllFit s := by
  intro nickname q found
  rcases Machine.available_offerAll found with rfl | old
  · exact fits
  · exact h nickname q old

/-! ## Sound interpreters -/

namespace Machine

/-- The store is sound, every function of the host is honest, and so are those of the plugins that
can be loaded. -/
structure Sound (m : Machine) : Prop where
  store : m.store.Sound
  registry : ∀ (name : String) (entry : RegistryEntry), m.registry[name]? = some entry →
    entry.run.Honest m.store
  functions : ∀ (name : String) (f : OwnedFunction), m.plugins.functions[name]? = some f →
    f.function.run.Honest m.store
  available : m.plugins.AllFit m.store

/-- The second interpreter is sound, and has what the first has. -/
structure Grows (m n : Machine) : Prop where
  within : m.store.Within n.store
  sound : n.Sound

variable {m n k : Machine}

theorem Sound.grows_refl (h : m.Sound) : m.Grows m :=
  ⟨.refl _, h⟩

theorem Grows.trans (h : m.Grows n) (h' : n.Grows k) : m.Grows k :=
  ⟨h.within.trans h'.within, h'.sound⟩

theorem Sound.withStore (h : m.Sound) {store : Store} (within : m.store.Within store)
    (sound : store.Sound) : m.Grows { m with store } :=
  ⟨within, sound, fun name entry found => (h.registry name entry found).mono within,
    fun name f found => (h.functions name f found).mono within,
    fun nickname p found => (h.available nickname p found).mono within⟩

theorem Sound.withScopes (h : m.Sound) {scopes : Scopes}
    (sound : Store.Sound { m.store with scopes }) :
    m.Grows { m with store := { m.store with scopes } } :=
  h.withStore (m.store.within_scopes scopes) sound

theorem Sound.withConsole (h : m.Sound) (console : Console) : m.Grows { m with console } :=
  ⟨.refl _, h.store, h.registry, h.functions, h.available⟩

theorem Sound.writeLine (h : m.Sound) (text : String) : m.Grows (m.writeLine text) :=
  h.withConsole _

theorem Sound.register (h : m.Sound) {entry : RegistryEntry} (honest : entry.run.Honest m.store) :
    Sound { m with registry := m.registry.add entry } := by
  refine ⟨h.store, fun name other found => ?_, h.functions, h.available⟩
  simp only [Registry.add, Std.TreeMap.getElem?_insert] at found
  split at found
  · exact Option.some.inj found ▸ honest
  · exact h.registry name other found

theorem Sound.unregister (h : m.Sound) (name : String) :
    Sound { m with registry := m.registry.erase name } := by
  refine ⟨h.store, fun other entry found => ?_, h.functions, h.available⟩
  rw [Std.TreeMap.getElem?_erase] at found
  split at found
  · cases found
  · exact h.registry other entry found

theorem Sound.defineFunction (h : m.Sound) (name : String) (f : FunctionObject) :
    m.Grows (m.defineFunction name f).2 :=
  h.withStore
    ((m.store.addFunction_extends _).within.trans (within_scopes _ _))
    ((h.store.addFunction _).define _ name (m.store.has_addFunction _))

theorem Sound.removeStub (h : m.Sound) (name : String) : m.Grows (m.removeStub name) := by
  rcases m.removeStub_cases name with ⟨-, eq⟩ | ⟨id, -, ⟨-, eq⟩ | ⟨-, eq⟩⟩
  · rw [eq]
    exact h.grows_refl
  · rw [eq]
    obtain ⟨within, sound⟩ := h.withScopes (h.store.remove Scopes.globals name)
    exact ⟨within, sound.store, sound.registry, sound.functions, sound.available⟩
  · rw [eq]
    exact ⟨.refl _, h.store, h.registry, h.functions, h.available⟩

theorem Sound.expose (h : m.Sound) (f : PluginFunction) : m.Grows (m.expose f) := by
  obtain ⟨within, sound⟩ := h.defineFunction f.name (.stub f.signature)
  exact ⟨within, sound.store, sound.registry, sound.functions, sound.available⟩

theorem Sound.foldl {α : Type} {change : Machine → α → Machine}
    (grows : ∀ m : Machine, m.Sound → ∀ a, m.Grows (change m a)) (as : List α) (h : m.Sound) :
    m.Grows (as.foldl change m) := by
  induction as generalizing m with
  | nil => exact h.grows_refl
  | cons a as ih =>
      have first := grows m h a
      exact first.trans (ih first.sound)

theorem Sound.runSetup (h : m.Sound) {steps : List SetupStep}
    (fits : ∀ step ∈ steps, step.Fits m.store) : m.Grows (m.runSetup steps).2 := by
  induction steps generalizing m with
  | nil => exact h.grows_refl
  | cons step steps ih =>
      obtain ⟨first, rest⟩ := List.forall_mem_cons.mp fits
      have goOn {n : Machine} (grown : m.Grows n) : m.Grows (n.runSetup steps).2 :=
        grown.trans (ih grown.sound fun step mem => (rest step mem).mono grown.within)
      cases step with
      | register resource entry =>
          obtain ⟨sound, has⟩ := h.store.build resource first.1
          have within := (resource.build_allocates m.store).within
          have built := h.withStore within sound
          exact goOn ⟨within, built.sound.register (first.2 _ within _ has)⟩
      | unregister name => exact goOn ⟨.refl _, h.unregister name⟩
      | define name f => exact goOn (h.defineFunction name f)
      | say text => exact goOn (h.writeLine text)
      | fail message => exact h.grows_refl

theorem mem_or_of_enter {owner key : String} {table : Table OwnedFunction}
    {functions : List PluginFunction} {f : OwnedFunction}
    (h : (PluginTable.enter owner table functions)[key]? = some f) :
    f.function ∈ functions ∨ table[key]? = some f := by
  induction functions generalizing table with
  | nil => exact .inr h
  | cons g functions ih =>
      rcases ih h with new | old
      · exact .inl (List.mem_cons_of_mem g new)
      · rw [Std.TreeMap.getElem?_insert] at old
        split at old
        · obtain rfl := Option.some.inj old
          exact .inl List.mem_cons_self
        · exact .inr old

theorem Sound.removePlugin (h : m.Sound) (name : String) :
    Sound { m with plugins := m.plugins.remove name } := by
  refine ⟨h.store, h.registry, fun key f found => ?_, h.available⟩
  rw [PluginTable.getElem?_functions_remove, Option.filter_eq_some_iff] at found
  exact h.functions key f found.1

theorem Sound.install (h : m.Sound) (p : Plugin) {functions : List PluginFunction}
    (honest : ∀ f ∈ functions, f.run.Honest m.store) :
    Sound { m with plugins := (m.plugins.install p functions).2 } := by
  have kept := h.removePlugin p.name
  refine ⟨h.store, h.registry, fun key f found => ?_, h.available⟩
  rcases mem_or_of_enter found with new | old
  · exact honest _ new
  · exact kept.functions key f old

theorem Sound.enlist (h : m.Sound) {p : Plugin} (fits : ∀ f ∈ p.functions, f.Fits m.store) :
    m.Grows (m.enlist p) := by
  obtain ⟨sound, honest⟩ := h.store.buildFunctions fits
  have within := (FunctionDesign.buildAll_allocates p.functions m.store).within
  have installed := (h.withStore within sound).sound.install p honest
  have removed := installed.foldl (fun _ h => h.removeStub) (m.plugins.ownedBy p.name)
  have exposed := removed.sound.foldl (fun _ h => h.expose)
    (FunctionDesign.buildAll p.functions m.store).1
  exact ⟨within.trans (removed.trans exposed).within, exposed.sound⟩

theorem Sound.load (h : m.Sound) {p : Plugin} (fits : p.Fits m.store) :
    m.Grows (m.load p).2 := by
  have setup : m.Grows (m.setUp p).2 :=
    (h.writeLine _).trans ((h.writeLine _).sound.runSetup fits.setup)
  rcases m.load_cases p with ⟨e, ready, result, eq⟩ | ⟨ready, result, eq⟩
  · rw [result] at setup
    rw [eq]
    exact setup.trans (setup.sound.writeLine _)
  · rw [result] at setup
    rw [eq]
    have taken := setup.sound.enlist fun f mem => (fits.functions f mem).mono setup.within
    exact (setup.trans taken).trans (taken.sound.writeLine _)

theorem Sound.loadByName (h : m.Sound) (nickname : String) :
    m.Grows (m.loadByName nickname).2 := by
  unfold Machine.loadByName
  split
  · exact h.writeLine _
  · rename_i p found
    have loaded := h.load (h.available _ p found)
    cases result : m.load p with
    | mk outcome m' =>
        rw [result] at loaded
        obtain ⟨within, sound⟩ := loaded
        cases outcome with
        | error e => exact ⟨within, sound⟩
        | ok =>
            exact ⟨within, sound.store, sound.registry, sound.functions, sound.available⟩

theorem Sound.unload (h : m.Sound) (nameOrAlias : String) :
    m.Grows (m.unload nameOrAlias).2 := by
  unfold Machine.unload
  split
  · exact h.grows_refl
  · rename_i name _
    have dropped := (h.removePlugin name).writeLine ("Plugin " ++ name ++ " unloaded")
    have removed := dropped.sound.foldl (fun _ h => h.removeStub) (m.plugins.ownedBy name)
    exact ⟨dropped.within.trans removed.within, removed.sound⟩

/-! ## Calls -/

theorem has_arguments {values : List Value} (h : ∀ v ∈ values, m.store.Has v) :
    ∀ arg ∈ m.arguments values, m.store.Has arg.value := by
  intro arg mem
  obtain ⟨v, inside, rfl⟩ := List.mem_map.mp mem
  exact h v inside

theorem Sound.callPlugin (h : m.Sound) (name : String) {values : List Value}
    (args : ∀ v ∈ values, m.store.Has v) :
    m.Grows (m.callPlugin name values).2 ∧ m.store.Has (m.callPlugin name values).1 := by
  refine ⟨h.withConsole _, ?_⟩
  unfold Machine.callPlugin PluginTable.call
  cases found : m.plugins.functions[name]? with
  | none => trivial
  | some f => exact (h.functions name f found).has_result (has_arguments args) _ _

theorem Sound.callRegistered (h : m.Sound) (name : String) {values : List Value}
    (args : ∀ v ∈ values, m.store.Has v) :
    m.Grows (m.callRegistered name values).2 ∧ m.store.Has (m.callRegistered name values).1 := by
  refine ⟨h.withConsole _, ?_⟩
  unfold Machine.callRegistered Registry.call
  cases found : m.registry[name]? with
  | none => trivial
  | some entry => exact (h.registry name entry found).has_result (has_arguments args) _ _

end Machine

/-! ## The start -/

namespace Lambda

variable {s : Store}

theorem createFunction_yields (args : List Argument) (console : Console) :
    ∃ b, (createFunction args console).1 = .ok (.bool b) := by
  unfold createFunction
  split
  · dsimp only
    split
    · exact ⟨false, rfl⟩
    · exact ⟨true, rfl⟩
  · exact ⟨false, rfl⟩

theorem createFunction_honest : createFunction.Honest s := by
  intro t _ args _ console v result
  obtain ⟨b, yields⟩ := createFunction_yields args console
  rw [yields] at result
  cases result
  trivial

theorem typeOf_honest : typeOf.Honest s := by
  intro t _ args _ console v result
  cases args <;> (cases result; trivial)

theorem has_toWhole {v : Value} (h : s.Has v) : s.Has (toWhole v) := by
  cases v with
  | string text =>
      unfold toWhole
      dsimp only
      split <;> trivial
  | null | number | bool | functionRef | classRef | instanceRef | host => exact h

theorem has_toBool {v : Value} (h : s.Has v) : s.Has (toBool v) := by
  cases v with
  | null | number | string | bool | functionRef | classRef | instanceRef | host => exact h

theorem has_castTo {arg : Argument} (h : s.Has arg.value) (target : String) :
    s.Has (castTo arg target) := by
  unfold castTo
  split
  · exact has_toWhole h
  · split
    · trivial
    · split
      · exact has_toBool h
      · exact h

theorem cast_honest : cast.Honest s := by
  intro t _ args all console v result
  match args, all with
  | [], _ | [_], _ =>
      cases result
      trivial
  | arg :: target :: rest, all =>
      cases result
      exact has_castTo (all arg List.mem_cons_self) _

theorem plugin_fits : plugin.Fits s := by
  have fits {f : FunctionDesign} (resource : f.resource = .known .null)
      (parameters : ∀ p ∈ f.parameters, p.default = none) (run : HonestMaker s f.run) :
      f.Fits s := by
    refine ⟨?_, fun p mem design isDefault => ?_, run⟩
    · rw [resource]
      exact fun v mem => List.mem_singleton.mp mem ▸ trivial
    · rw [parameters p mem] at isDefault
      cases isDefault
  refine ⟨nofun, fun f mem => ?_⟩
  simp only [plugin, List.mem_cons, List.not_mem_nil, or_false] at mem
  rcases mem with rfl | rfl | rfl
  · exact fits rfl (by simp) fun _ _ _ _ => createFunction_honest
  · exact fits rfl (by simp) fun _ _ _ _ => typeOf_honest
  · exact fits rfl (by simp) fun _ _ _ _ => cast_honest

end Lambda

namespace Machine

theorem sound_fresh (console : Console) : (fresh console).Sound := by
  unfold fresh
  refine (Sound.foldl (fun m h b => h.defineFunction b.signature.name (.stub b.signature)) _ ?_).sound
  refine ⟨⟨fun f name v found => ?_, fun _ _ => nofun, fun _ _ => nofun⟩, ?_, ?_, ?_⟩
  · -- the only frame is empty
    cases f <;> simp [Scopes.local?, Scopes.root, Scopes.push, Scopes.empty] at found
  · intro name entry found
    simp at found
  · intro name f found
    change (∅ : Table OwnedFunction)[name]? = some f at found
    simp at found
  · refine PluginTable.AllFit.offerAll (fun nickname p found => ?_) Lambda.plugin_fits _
    simp at found

end Machine

end Scriptlet
