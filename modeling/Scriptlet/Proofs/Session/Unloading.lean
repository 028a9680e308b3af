import Scriptlet.Proofs.Host.Bindings
import Scriptlet.Proofs.Session.Chains
import Scriptlet.Proofs.Session.History

/-! # What leaves with a plugin

A plugin that is unloaded takes with it what belongs to it: its functions, its aliases, and those
global names that are still bound to the stubs of its last load. Names that a script, the host or
another plugin has bound anew stay, and so does all else. -/

namespace Scriptlet

open PluginEvent

theorem PluginTable.mem_names_of_resolve? {t : PluginTable} {x plugin : String}
    (h : t.resolve? x = some plugin) : plugin ∈ t.names := by
  rw [resolve?] at h
  split at h
  case isTrue isLoaded =>
      obtain rfl := Option.some.inj h
      exact isLoaded_iff.mp isLoaded
  case isFalse => exact isLoaded_iff.mp (Option.filter_eq_some_iff.mp h).2

theorem PluginTable.mem_ownedBy_iff_owner? {t : PluginTable} {plugin name : String} :
    name ∈ t.ownedBy plugin ↔ t.owner? name = some plugin := by
  rw [mem_ownedBy, owner?, Option.map_eq_some_iff]

namespace Machine

/-- Something happens to an interpreter, with the events that are noted: a plugin is loaded or
unloaded, or else the loaded plugins stay as they are, with their functions, aliases and stubs. -/
inductive Happens (m : Machine) : List PluginEvent → Machine → Prop where
  | load (p : Plugin) : Happens m (m.loadEvents none p) (m.load p).2
  | loadByName (nickname : String) :
      Happens m (m.loadByNameEvents nickname) (m.loadByName nickname).2
  | unload (nameOrAlias : String) :
      Happens m (m.unloadEvents nameOrAlias) (m.unload nameOrAlias).2
  | other {n : Machine} (loaded : n.plugins.loaded = m.plugins.loaded)
      (functions : n.plugins.functions = m.plugins.functions)
      (aliases : n.plugins.aliases = m.plugins.aliases) (stubs : n.stubs = m.stubs) :
      Happens m [] n

/-- Meanwhile the plugin is neither unloaded nor loaded again. -/
def Since (plugin : String) : Machine → Machine → Prop :=
  Relation.ReflTransGen fun m n =>
    ∃ events, m.Happens events n ∧ ∀ event ∈ events, ¬ event.Replaces plugin

variable {m n : Machine} {events : List PluginEvent} {plugin name : String}

/-- What happens to the plugins: nothing, or one is taken in, or one is dropped with the stubs of
its functions. -/
theorem Happens.cases (h : m.Happens events n) :
    (events = [] ∧ n.plugins.names = m.plugins.names ∧
        n.plugins.functions = m.plugins.functions ∧ n.stubs = m.stubs) ∨
      (∃ nickname p functions, events = [.loaded nickname p.name functions] ∧ m.TakesIn p n) ∨
      ∃ name console, events = [.unloaded name] ∧ n = (m.plugins.ownedBy name).foldl removeStub
        { m with console, plugins := m.plugins.remove name } := by
  cases h with
  | load p =>
      rcases m.load_outcome p with ⟨e, -, kept, events⟩ | ⟨functions, -, taken, -, events⟩
      · exact .inl ⟨events _, by rw [kept.plugins], by rw [kept.plugins], kept.stubs⟩
      · exact .inr (.inl ⟨none, p, functions, events _, taken⟩)
  | loadByName nickname =>
      rcases m.loadByName_outcome nickname with
        ⟨e, -, kept, events⟩ | ⟨p, functions, -, taken, -, events⟩
      · exact .inl ⟨events, by rw [kept.plugins], by rw [kept.plugins], kept.stubs⟩
      · exact .inr (.inl ⟨some nickname, p, functions, events, taken⟩)
  | unload nameOrAlias =>
      rcases m.unload_outcome nameOrAlias with ⟨-, kept, events⟩ | ⟨name, -, dropped, events⟩
      · rw [kept]
        exact .inl ⟨events, rfl, rfl, rfl⟩
      · rw [dropped]
        exact .inr (.inr ⟨name, _, events, rfl⟩)
  | other loaded functions aliases stubs =>
      exact .inl ⟨rfl, congrArg (·.map (·.name)) loaded, functions, stubs⟩

/-! ## The stubs of a plugin -/

/-- A plugin that is taken in leaves the stubs of others alone, the names that it exposes apart. -/
theorem enlist_keeps_stub (m : Machine) {p : Plugin} (different : plugin ≠ p.name)
    (owned : (m.enlist p).plugins.owner? name = some plugin) :
    m.plugins.owner? name = some plugin ∧ (m.enlist p).stubs[name]? = m.stubs[name]? := by
  obtain ⟨entry, found, rfl⟩ := Option.map_eq_some_iff.mp owned
  rw [enlist_plugins, PluginTable.getElem?_install _ _ _ none, update_eq_refresh] at found
  rcases refresh_eq_some_iff.mp found with provided | ⟨held, unexposed, -⟩
  · obtain ⟨_, _, same, -⟩ := provided_eq_some_iff.mp provided
    exact absurd (loaded.inj same).2.1.symm different
  · have owner : m.plugins.owner? name = some entry.owner :=
      Option.map_eq_some_iff.mpr ⟨entry, held, rfl⟩
    have notMem : name ∉ m.plugins.ownedBy p.name := by
      rw [PluginTable.mem_ownedBy_iff_owner?, owner]
      exact fun same => different (Option.some.inj same)
    have unnamed : name ∉ (FunctionDesign.buildAll p.functions m.store).1.map (·.name) := by
      simpa [Exposes] using provided_eq_none_iff.mp unexposed
    refine ⟨owner, ?_⟩
    rw [enlist]
    dsimp only
    rw [stubs_exposeAll_of_notMem unnamed]
    exact (stubs_removeStubs _ _ name).trans (if_neg notMem)

/-- What belongs to a plugin that is neither unloaded nor loaded belonged to it before, and has the
stub that it had. -/
theorem Happens.keeps_stub (h : m.Happens events n)
    (quiet : ∀ event ∈ events, ¬ event.Replaces plugin)
    (owned : n.plugins.owner? name = some plugin) :
    m.plugins.owner? name = some plugin ∧ n.stubs[name]? = m.stubs[name]? := by
  rcases h.cases with ⟨-, -, functions, stubs⟩ | ⟨nickname, p, functions, rfl, taken⟩ |
    ⟨dropped, console, rfl, rfl⟩
  · rw [PluginTable.owner?, functions] at owned
    exact ⟨owned, by rw [stubs]⟩
  · obtain ⟨ready, console, aliases, setup, rfl⟩ := taken
    have kept := m.keeps_setUp p
    rw [setup] at kept
    have different : plugin ≠ p.name := by simpa [Replaces] using quiet
    obtain ⟨owner, stub⟩ := ready.enlist_keeps_stub different owned
    rw [kept.plugins] at owner
    exact ⟨owner, stub.trans (by rw [kept.stubs])⟩
  · have different : plugin ≠ dropped := by simpa [Replaces] using quiet
    rw [removeStubs_plugins, PluginTable.owner?, PluginTable.getElem?_functions_remove] at owned
    obtain ⟨entry, found, rfl⟩ := Option.map_eq_some_iff.mp owned
    have owner : m.plugins.owner? name = some entry.owner :=
      Option.map_eq_some_iff.mpr ⟨entry, (Option.filter_eq_some_iff.mp found).1, rfl⟩
    refine ⟨owner, (stubs_removeStubs _ _ name).trans (if_neg ?_)⟩
    rw [PluginTable.mem_ownedBy_iff_owner?, owner]
    exact fun same => different (Option.some.inj same)

theorem Since.keeps_stub (h : Since plugin m n) (owned : n.plugins.owner? name = some plugin) :
    m.plugins.owner? name = some plugin ∧ n.stubs[name]? = m.stubs[name]? := by
  induction h with
  | refl => exact ⟨owned, rfl⟩
  | tail _ step ih =>
      obtain ⟨events, happens, quiet⟩ := step
      obtain ⟨before, stub⟩ := happens.keeps_stub quiet owned
      obtain ⟨owner, earlier⟩ := ih before
      exact ⟨owner, stub.trans earlier⟩

/-- A plugin that is neither unloaded nor loaded was loaded before. -/
theorem Happens.mem_names (h : m.Happens events n)
    (quiet : ∀ event ∈ events, ¬ event.Replaces plugin) (mem : plugin ∈ n.plugins.names) :
    plugin ∈ m.plugins.names := by
  rcases h.cases with ⟨-, names, -, -⟩ | ⟨nickname, p, functions, rfl, taken⟩ |
    ⟨dropped, console, rfl, rfl⟩
  · rwa [names] at mem
  · obtain ⟨ready, console, aliases, setup, rfl⟩ := taken
    have kept := (m.keeps_setUp p).plugins
    rw [setup] at kept
    have different : plugin ≠ p.name := by simpa [Replaces] using quiet
    have entered : plugin ∈ (ready.enlist p).plugins.names := mem
    rw [enlist_plugins, PluginTable.names_install, List.mem_append] at entered
    have before := entered.resolve_right fun last => different (List.mem_singleton.mp last)
    exact kept ▸ (PluginTable.mem_names_remove.mp before).1
  · rw [removeStubs_plugins] at mem
    exact (PluginTable.mem_names_remove.mp mem).1

/-- A load binds the names of the plugin's functions to stubs that were not there before. -/
theorem TakesIn.boundToNewStub {p : Plugin} (h : m.TakesIn p n)
    (inside : Scopes.globals < m.frameCount) (owned : n.plugins.owner? name = some p.name) :
    n.BoundToNewStub m.store.functions.size name := by
  obtain ⟨ready, console, aliases, setup, rfl⟩ := h
  have kept := m.keeps_setUp p
  have count := (m.setUp_variesInGlobals p).scopes.count
  rw [setup] at kept count
  have exposes : p.Exposes name := by
    obtain ⟨entry, found, owner⟩ := Option.map_eq_some_iff.mp owned
    have entered : (ready.enlist p).plugins.functions[name]? = some entry := found
    rw [enlist_plugins, PluginTable.getElem?_install _ _ _ none, update_eq_refresh] at entered
    rcases refresh_eq_some_iff.mp entered with provided | ⟨-, -, other⟩
    · obtain ⟨_, functions, same, last⟩ := provided_eq_some_iff.mp provided
      obtain ⟨f, mem, named⟩ := isSome_lastNamed.mp (Option.isSome_of_eq_some last)
      rw [Plugin.Exposes, ← FunctionDesign.names_buildAll p.functions ready.store,
        (loaded.inj same).2.2]
      exact List.mem_map.mpr ⟨f, mem, named⟩
    · exact absurd owner other
  obtain ⟨id, new, stub, bound⟩ := ready.boundToNewStub_enlist exposes
    (Nat.lt_of_lt_of_eq inside count.symm)
  exact ⟨id, Nat.le_trans (size_le_of_kept kept.functions) new, stub, bound⟩

/-- Unloading has taken away what belonged to the plugin, and nothing else: of the global names,
those that were bound as they were right after its last load. -/
structure Rid (plugin : String) (start m n : Machine) : Prop where
  loaded : n.plugins.loaded = m.plugins.loaded.filter (·.name ≠ plugin)
  functions : n.plugins.functions.toList =
    m.plugins.functions.toList.filter (·.2.owner ≠ plugin)
  aliases : n.plugins.aliases.toList = m.plugins.aliases.toList.filter (·.2 ≠ plugin)
  available : n.plugins.available = m.plugins.available
  registry : n.registry = m.registry
  freed : ∀ name, m.plugins.owner? name = some plugin → m.global? name = start.global? name →
    n.global? name = none
  kept : ∀ name, ¬ (m.plugins.owner? name = some plugin ∧ m.global? name = start.global? name) →
    n.global? name = m.global? name
  frames : m.store.scopes.VaryInGlobals n.store.scopes
  objects : n.store = { m.store with scopes := n.store.scopes }
  console : n.console = m.console.writeLine ("Plugin " ++ plugin ++ " unloaded")

theorem rid_removeStubs {start : Machine} (since : Since plugin start m)
    (bound : ∀ name, start.plugins.owner? name = some plugin → start.BoundToStub name) :
    Rid plugin start m ((m.plugins.ownedBy plugin).foldl removeStub
      { m with
        console := m.console.writeLine ("Plugin " ++ plugin ++ " unloaded")
        plugins := m.plugins.remove plugin }) := by
  let dropped : Machine := { m with
    console := m.console.writeLine ("Plugin " ++ plugin ++ " unloaded")
    plugins := m.plugins.remove plugin }
  -- Since the last load the stubs are the same, so to be bound to one is to be bound as then.
  have stubbed : ∀ name, m.plugins.owner? name = some plugin →
      (m.BoundToStub name ↔ m.global? name = start.global? name) := by
    intro name owned
    obtain ⟨owner, stubs⟩ := since.keeps_stub owned
    obtain ⟨id, stub, here⟩ := bound name owner
    rw [BoundToStub, stubs, stub, here]
    simp
  have rest := dropped.removeStubs_eq (m.plugins.ownedBy plugin)
  have table := dropped.removeStubs_plugins (m.plugins.ownedBy plugin)
  refine
    { loaded := congrArg PluginTable.loaded table
      functions := ?_
      aliases := ?_
      available := ?_
      registry := ?_
      freed := fun name owned same => ?_
      kept := fun name apart => ?_
      frames := (foldl_variesInGlobals removeStub_variesInGlobals _ dropped).scopes
      objects := congrArg Machine.store rest
      console := congrArg Machine.console rest }
  · rw [table]
    exact Std.TreeMap.toList_filter
  · rw [table]
    exact Std.TreeMap.toList_filter
  · rw [table]
    rfl
  · rw [rest]
  · have mem := PluginTable.mem_ownedBy_iff_owner?.mpr owned
    exact global?_removeStubs (m := dropped) (.inr ⟨(stubbed name owned).mpr same, mem⟩)
  · apply global?_removeStubs_of_not (m := dropped)
    rintro ⟨boundTo, mem⟩
    have owned := PluginTable.mem_ownedBy_iff_owner?.mp mem
    exact apart ⟨owned, (stubbed name owned).mp boundTo⟩

end Machine

namespace Session

open Machine

variable {m n : Machine} {own : List FrameId}

/-! ## One thing after the other -/

/-- What a script does, its host can do. So the states that a script passes through are among those
that hosts bring about. -/
theorem Reached.step (h : Reached own m) {l : Licence} (homes : ∀ f, l.homes f → f < m.frameCount)
    (step : Step l m n) : Reached own n := by
  have reached : ∀ f, l.Reaches m f → f < m.frameCount := by
    rintro f (home | ⟨-, inside⟩)
    · exact homes f home
    · exact inside
  cases step with
  | console written => exact h.next (.change (.console written) trivial)
  | newFrame parent allowed =>
      have inside : parent < m.frameCount := by
        rcases allowed with reaches | ⟨id, rfl⟩
        · exact reached parent reaches
        · exact h.grounded.scope_lt id
      exact h.next (.change (.newFrame parent) inside)
  | rebind f name value | declare f name value =>
      exact h.next (.change (.define f name value) trivial)
  | newFunction f declared =>
      have calls : f.CallsOnly fun _ => True := fun _ _ _ _ _ _ => trivial
      exact h.next (.change (.newFunction f) ⟨calls, fun g scope => reached g (declared g scope)⟩)
  | newClass c => exact h.next (.change (.newClass c) trivial)
  | newInstance id dynamic => exact h.next (.change (.newInstance id) dynamic)
  | setField id name value => exact h.next (.change (.setField id name value) trivial)
  | load nickname => exact h.next (.act (.operation (.loadByName nickname)) trivial)
  | unload nameOrAlias => exact h.next (.act (.operation (.unload nameOrAlias)) trivial)

theorem happens_of_step {l : Licence} (step : Step l m n) : ∃ events, m.Happens events n := by
  cases step with
  | console | newFrame | rebind | declare | newFunction | newClass | newInstance | setField =>
      exact ⟨[], .other rfl rfl rfl rfl⟩
  | load nickname => exact ⟨_, .loadByName nickname⟩
  | unload nameOrAlias => exact ⟨_, .unload nameOrAlias⟩

section Induction

variable {P : Machine → Prop}
  (keeps : ∀ own m n events, Reached own m → m.Happens events n → P m → P n)
include keeps

theorem Reached.along_steps (h : Reached own m) {l : Licence}
    (homes : ∀ f, l.homes f → f < m.frameCount) (steps : Steps l m n) (start : P m) :
    Reached own n ∧ P n := by
  induction steps with
  | refl => exact ⟨h, start⟩
  | tail before step ih =>
      obtain ⟨reached, holds⟩ := ih
      obtain ⟨events, happens⟩ := happens_of_step step
      have inside := fun f home => Nat.lt_of_lt_of_le (homes f home) (Steps.frameCount_le before)
      exact ⟨reached.step inside step, keeps own _ _ events reached happens holds⟩

theorem Reached.along_run (h : Reached own m) {α : Type} {x : Eval α} {f : FrameId}
    {binds : FrameId → String → Prop} (runs : x.Runs (· = f) binds) (inside : f < m.frameCount)
    (start : P m) : P (x.after m) := by
  refine (h.along_steps keeps ?_ (runs m) start).2
  rintro _ rfl
  exact inside

/-- What holds of fresh interpreters and is kept by everything that happens holds of all that hosts
bring about. -/
theorem Reached.happening (fresh : ∀ console, P (.fresh console)) (h : Reached own m) : P m := by
  induction h with
  | fresh console => exact fresh console
  | @next own roots m n reached move ih =>
      have other : ∀ {n : Machine}, n.plugins.loaded = m.plugins.loaded →
          n.plugins.functions = m.plugins.functions → n.plugins.aliases = m.plugins.aliases →
          n.stubs = m.stubs → P n := fun loaded functions aliases stubs =>
        keeps own m _ [] reached (.other loaded functions aliases stubs) ih
      have inGlobals := reached.grounded.scopes.globals_lt
      cases move with
      | change c fits => cases c <;> exact other rfl rfl rfl rfl
      | act a inside =>
          cases a with
          | operation o =>
              cases o with
              | load p => exact keeps own m _ _ reached (.load p) ih
              | loadByName nickname => exact keeps own m _ _ reached (.loadByName nickname) ih
              | unload nameOrAlias => exact keeps own m _ _ reached (.unload nameOrAlias) ih
              | run fuel source => exact reached.along_run keeps (runs_run fuel source) inGlobals ih
              | offer | defineFunction | register | unregister => exact other rfl rfl rfl rfl
          | interpret fuel program =>
              exact reached.along_run keeps (runs_interpret fuel program) inGlobals ih
          | execute fuel s f =>
              exact reached.along_run keeps ((Evaluator.runs_ofFuel fuel).exec s f) inside ih
          | evaluate fuel e f =>
              exact reached.along_run keeps ((Evaluator.runs_ofFuel fuel).eval e f) inside ih
          | setField object name design =>
              simp only [Action.apply]
              split
              · exact other rfl rfl rfl rfl
              · exact other rfl rfl rfl rfl
          | root | define | remove | register | callPlugin | callRegistered =>
              exact other rfl rfl rfl rfl

end Induction

/-! ## The last load -/

/-- The last load of the plugin led from `before` to `start`. Since then the plugin has been neither
unloaded nor loaded again. -/
structure LastLoad (plugin : String) (before start m : Machine) : Prop where
  reached : ∃ own, Reached own before
  loaded : ∃ nickname functions, before.Happens [.loaded nickname plugin functions] start
  since : Since plugin start m

theorem exists_lastLoad (h : Reached own m) {plugin : String} (mem : plugin ∈ m.plugins.names) :
    ∃ before start, LastLoad plugin before start m := by
  refine h.happening (P := fun m => ∀ plugin ∈ m.plugins.names,
    ∃ before start, LastLoad plugin before start m) ?_ ?_ plugin mem
  · intro own m n events reached happens known plugin mem
    by_cases quiet : ∀ event ∈ events, ¬ event.Replaces plugin
    · obtain ⟨before, start, last⟩ := known plugin (happens.mem_names quiet mem)
      exact ⟨before, start, last.reached, last.loaded, last.since.tail ⟨events, happens, quiet⟩⟩
    · rcases happens.cases with ⟨rfl, -⟩ | ⟨nickname, p, functions, rfl, -⟩ | ⟨name, _, rfl, rfl⟩
      · exact absurd (by simp) quiet
      · obtain rfl : plugin = p.name := by simpa [Replaces] using quiet
        exact ⟨m, n, ⟨own, reached⟩, ⟨nickname, functions, happens⟩, .refl⟩
      · obtain rfl : plugin = name := by simpa [Replaces] using quiet
        rw [removeStubs_plugins] at mem
        exact absurd rfl (PluginTable.mem_names_remove.mp mem).2
  · intro console plugin mem
    have nothing : (Machine.fresh console).plugins.names = [] := rfl
    simp [nothing] at mem

theorem LastLoad.boundToNewStub {plugin name : String} {before start : Machine}
    (h : LastLoad plugin before start m) (owned : start.plugins.owner? name = some plugin) :
    start.BoundToNewStub before.store.functions.size name := by
  obtain ⟨own, reached⟩ := h.reached
  obtain ⟨nickname, functions, happens⟩ := h.loaded
  rcases happens.cases with ⟨none_noted, -⟩ | ⟨_, p, _, noted, taken⟩ | ⟨_, _, noted, -⟩
  · cases none_noted
  · obtain ⟨-, rfl, -⟩ := loaded.inj (List.singleton_inj.mp noted)
    exact taken.boundToNewStub reached.grounded.scopes.globals_lt owned
  · cases noted

/-- Unloading finds a plugin exactly if the text leads to one, and else changes nothing. The plugin
was loaded, and its last load bound the names of its functions to stubs that it made. Of these
bindings, unloading takes away those that are still the same and whose functions still belong to the
plugin, together with these functions, the aliases of the plugin and the plugin; all else stays. -/
theorem unload_takes_own (h : Reached own m) (x : String) :
    ((m.unload x).1 = true ↔ ∃ plugin, m.plugins.resolve? x = some plugin) ∧
      ((m.unload x).1 = false → (m.unload x).2 = m) ∧
      ∀ plugin, m.plugins.resolve? x = some plugin →
        (∃ before start, LastLoad plugin before start m) ∧
        ∀ before start, LastLoad plugin before start m →
          (∀ name, m.plugins.owner? name = some plugin →
            start.BoundToNewStub before.store.functions.size name) ∧
          Rid plugin start m (m.unload x).2 := by
  rcases m.unload_outcome x with ⟨unresolved, same, -⟩ | ⟨plugin, resolved, dropped, -⟩
  · rw [same, unresolved]
    simp
  · rw [dropped, resolved]
    refine ⟨by simp, by simp, fun _ found => ?_⟩
    obtain rfl := Option.some.inj found
    refine ⟨exists_lastLoad h (PluginTable.mem_names_of_resolve? resolved), ?_⟩
    intro before start last
    refine ⟨fun name owned => last.boundToNewStub (last.since.keeps_stub owned).1, ?_⟩
    exact rid_removeStubs last.since fun name owned => (last.boundToNewStub owned).boundToStub

/-- Of three functions, one is still bound as it was, one was taken over, and one is bound anew. -/
theorem unload_takes_own_takeover :
    let idle : NativeFunction := fun _ console => (.ok .null, console)
    let function (name : String) : FunctionDesign :=
      { name, description := "", parameters := [], returnType := "", run := fun _ => idle }
    let first : Plugin := ⟨"p", "", "", [], ["f", "g", "h"].map function⟩
    let second : Plugin := ⟨"q", "", "", [], [function "g"]⟩
    let m := performed {} [.operation (.load first), .operation (.load second),
      .operation (.run 9 "h=\"a\";")]
    ["f", "g", "h"].map m.plugins.owner? = [some "p", some "q", some "p"] ∧
      ["f", "g", "h"].map (m.unload "p").2.global? =
        [none, m.global? "g", some (.string "a")] ∧
      ∃ before start, LastLoad "p" before start m ∧ Rid "p" start m (m.unload "p").2 := by
  intro idle function first second m
  have loaded : Reached [] (performed {} [.operation (.load first), .operation (.load second)]) :=
    ((Reached.fresh {}).next (.act (.operation (.load first)) trivial)).next
      (.act (.operation (.load second)) trivial)
  have reached : Reached [] m := loaded.next (.act (.operation (.run 9 _)) trivial)
  obtain ⟨⟨before, start, last⟩, taken⟩ :=
    (unload_takes_own reached "p").2.2 "p" (by decide +kernel)
  exact ⟨by decide +kernel, by decide +kernel, before, start, last, (taken before start last).2⟩

end Session

end Scriptlet
