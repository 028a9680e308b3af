import Scriptlet.Proofs.Host.Ownership
import Scriptlet.Proofs.Session.Operations

/-! # Histories of sessions

Every session has a history of the plugins that were loaded and unloaded, by the host or by scripts.
Whom a function belongs to can be read off it. -/

namespace Scriptlet

open PluginEvent PluginFunction

/-! ## Loading and unloading -/

namespace Machine

/-- The event of loading a plugin: none if its setup fails. The functions are those that are exposed
after the setup. -/
def loadEvents (m : Machine) (nickname : Option String) (p : Plugin) : List PluginEvent :=
  match m.setUp p with
  | (.error _, _) => []
  | (.ok _, ready) =>
      [.loaded nickname p.name (FunctionDesign.buildAll p.functions ready.store).1]

def loadByNameEvents (m : Machine) (nickname : String) : List PluginEvent :=
  match m.plugins.find? nickname with
  | none => []
  | some p => m.loadEvents (some nickname) p

/-- The event of unloading the plugin that a name or an alias leads to. -/
def unloadEvents (m : Machine) (nameOrAlias : String) : List PluginEvent :=
  match m.plugins.resolve? nameOrAlias with
  | none => []
  | some name => [.unloaded name]

/-- A plugin is taken in: the console and the aliases apart, the interpreter is as after the setup
of the plugin and its entry. -/
def TakesIn (m : Machine) (p : Plugin) (n : Machine) : Prop :=
  ∃ ready console aliases, m.setUp p = (.ok (), ready) ∧
    n = { ready.enlist p with console, plugins := { (ready.enlist p).plugins with aliases } }

/-- Loading changes nothing about plugins and is not noted, or takes the plugin in and is noted. -/
theorem load_outcome (m : Machine) (p : Plugin) :
    (∃ e, (m.load p).1 = .error e ∧ m.Keeps (m.load p).2 ∧
        ∀ nickname, m.loadEvents nickname p = []) ∨
      ∃ functions, (m.load p).1 = .ok () ∧ m.TakesIn p (m.load p).2 ∧
        (m.load p).2.plugins = (m.plugins.install p functions).2 ∧
        ∀ nickname, m.loadEvents nickname p = [.loaded nickname p.name functions] := by
  have kept := m.keeps_setUp p
  rcases m.load_cases p with ⟨e, ready, setup, eq⟩ | ⟨ready, setup, eq⟩
  · rw [setup] at kept
    refine .inl ⟨e, congrArg Prod.fst eq, ?_, fun nickname => by rw [loadEvents, setup]⟩
    rw [eq]
    exact kept.trans (ready.keeps_writeLine _)
  · rw [setup] at kept
    have before : ready.plugins = m.plugins := kept.plugins
    refine .inr ⟨_, congrArg Prod.fst eq, ?_, ?_, fun nickname => by rw [loadEvents, setup]⟩
    · rw [eq]
      exact ⟨ready, _, _, setup, rfl⟩
    · rw [eq, ← before]
      exact ready.enlist_plugins p

/-- Loading by an alias notes the alias as well. -/
theorem loadByName_outcome (m : Machine) (nickname : String) :
    (∃ e, (m.loadByName nickname).1 = .error e ∧ m.Keeps (m.loadByName nickname).2 ∧
        m.loadByNameEvents nickname = []) ∨
      ∃ p functions, (m.loadByName nickname).1 = .ok () ∧
        m.TakesIn p (m.loadByName nickname).2 ∧
        (m.loadByName nickname).2.plugins =
          (m.plugins.install p functions).2.recordAlias nickname p.name ∧
        m.loadByNameEvents nickname = [.loaded (some nickname) p.name functions] := by
  unfold loadByName loadByNameEvents
  cases m.plugins.find? nickname with
  | none => exact .inl ⟨_, rfl, m.keeps_writeLine _, rfl⟩
  | some p =>
      dsimp only
      have outcome := m.load_outcome p
      cases result : m.load p with
      | mk answer m' =>
          rw [result] at outcome
          rcases outcome with ⟨e, failed, kept, events⟩ | ⟨functions, loaded, taken, table, events⟩
          · obtain rfl : answer = .error e := failed
            exact .inl ⟨e, rfl, kept, events _⟩
          · obtain rfl : answer = .ok () := loaded
            have noted := congrArg (·.recordAlias nickname p.name) table
            obtain ⟨ready, console, aliases, setup, rfl⟩ := taken
            exact .inr ⟨p, functions, rfl, ⟨ready, console, _, setup, rfl⟩, noted, events _⟩

/-- Unloading does nothing, or drops a plugin with the stubs of its functions and is noted. -/
theorem unload_outcome (m : Machine) (nameOrAlias : String) :
    (m.plugins.resolve? nameOrAlias = none ∧ m.unload nameOrAlias = (false, m) ∧
        m.unloadEvents nameOrAlias = []) ∨
      ∃ name, m.plugins.resolve? nameOrAlias = some name ∧
        m.unload nameOrAlias = (true, (m.plugins.ownedBy name).foldl removeStub
          { m with
            console := m.console.writeLine ("Plugin " ++ name ++ " unloaded")
            plugins := m.plugins.remove name }) ∧
        m.unloadEvents nameOrAlias = [.unloaded name] := by
  unfold unload unloadEvents
  cases m.plugins.resolve? nameOrAlias with
  | none => exact .inl ⟨rfl, rfl, rfl⟩
  | some name => exact .inr ⟨name, rfl, rfl, rfl⟩

/-! ## Scripts -/

/-- The store and the console change, and nothing else. -/
def Quiet (m m' : Machine) : Prop :=
  ∃ store console, m' = { m with store, console }

/-- The events of a script that runs: plugins are loaded and unloaded, and in between the plugins
stay as they are. -/
inductive Chronicle (m : Machine) : List PluginEvent → Machine → Prop where
  | refl : Chronicle m [] m
  | quiet {events : List PluginEvent} {mid m' : Machine} :
      Chronicle m events mid → Quiet mid m' → Chronicle m events m'
  | load {events : List PluginEvent} {mid : Machine} (nickname : String) :
      Chronicle m events mid →
      Chronicle m (events ++ mid.loadByNameEvents nickname) (mid.loadByName nickname).2
  | unload {events : List PluginEvent} {mid : Machine} (nameOrAlias : String) :
      Chronicle m events mid →
      Chronicle m (events ++ mid.unloadEvents nameOrAlias) (mid.unload nameOrAlias).2

theorem Steps.chronicle {l : Licence} {m m' : Machine} (h : Steps l m m') :
    ∃ events, Chronicle m events m' := by
  induction h with
  | refl => exact ⟨[], .refl⟩
  | tail _ step ih =>
      obtain ⟨events, before⟩ := ih
      cases step with
      | console | newFrame | rebind | declare | newFunction | newClass | newInstance | setField =>
          exact ⟨events, before.quiet ⟨_, _, rfl⟩⟩
      | load nickname => exact ⟨_, before.load nickname⟩
      | unload nameOrAlias => exact ⟨_, before.unload nameOrAlias⟩

/-- What a view shows of the plugins can be read off the events: each of them updates it, and all
else leaves it as it is. -/
structure Replayed {σ : Type} (view : PluginTable → σ) (update : σ → PluginEvent → σ) : Prop where
  load : ∀ (m : Machine) (p : Plugin),
    view (m.load p).2.plugins = (m.loadEvents none p).foldl update (view m.plugins)
  loadByName : ∀ (m : Machine) (nickname : String),
    view (m.loadByName nickname).2.plugins =
      (m.loadByNameEvents nickname).foldl update (view m.plugins)
  unload : ∀ (m : Machine) (nameOrAlias : String),
    view (m.unload nameOrAlias).2.plugins =
      (m.unloadEvents nameOrAlias).foldl update (view m.plugins)
  offer : ∀ (t : PluginTable) (nickname : String) (p : Plugin), view (t.offer nickname p) = view t

theorem replayed_functions (name : String) :
    Replayed (fun t => t.functions[name]?) (update name) where
  load m p := by
    rcases m.load_outcome p with ⟨e, -, kept, events⟩ | ⟨functions, -, -, table, events⟩
    · rw [kept.plugins, events]
      rfl
    · rw [table, events]
      exact m.plugins.getElem?_install p functions none name
  loadByName m nickname := by
    rcases m.loadByName_outcome nickname with
      ⟨e, -, kept, events⟩ | ⟨p, functions, -, -, table, events⟩
    · rw [kept.plugins, events]
      rfl
    · rw [table, events]
      exact m.plugins.getElem?_install p functions (some nickname) name
  unload m nameOrAlias := by
    rcases m.unload_outcome nameOrAlias with ⟨-, kept, events⟩ | ⟨plugin, -, dropped, events⟩
    · rw [kept, events]
      rfl
    · rw [dropped, events, removeStubs_plugins]
      exact PluginTable.getElem?_functions_remove
  offer _ _ _ := rfl

theorem Chronicle.replay {σ : Type} {view : PluginTable → σ} {update : σ → PluginEvent → σ}
    (replayed : Replayed view update) {m m' : Machine} {events : List PluginEvent}
    (h : Chronicle m events m') :
    view m'.plugins = events.foldl update (view m.plugins) := by
  induction h with
  | refl => rfl
  | quiet _ change ih =>
      obtain ⟨store, console, rfl⟩ := change
      exact ih
  | @load events mid nickname _ ih => rw [replayed.loadByName, ih, List.foldl_append]
  | @unload events mid nameOrAlias _ ih => rw [replayed.unload, ih, List.foldl_append]

end Machine

/-! ## Sessions -/

namespace Session

open Machine

/-- The events of an operation. Those of a script are the ones of its run. -/
def Operation.Records (m : Machine) (events : List PluginEvent) : Operation → Prop
  | load p => events = m.loadEvents none p
  | loadByName nickname => events = m.loadByNameEvents nickname
  | unload nameOrAlias => events = m.unloadEvents nameOrAlias
  | run fuel source => m.Chronicle events ((Session.run fuel source).after m)
  | offer .. | defineFunction .. | register .. | unregister .. => events = []

/-- The events of operations, one after the other. -/
inductive Recorded : Machine → List Operation → List PluginEvent → Prop where
  | nil (m : Machine) : Recorded m [] []
  | cons {m : Machine} {operation : Operation} {operations : List Operation}
      {events history : List PluginEvent} : operation.Records m events →
      Recorded (operation.apply m) operations history →
      Recorded m (operation :: operations) (events ++ history)

theorem Operation.exists_records (m : Machine) (operation : Operation) :
    ∃ events, operation.Records m events := by
  cases operation with
  | run fuel source => exact (runs_run fuel source m).chronicle
  | load | loadByName | unload | offer | defineFunction | register | unregister => exact ⟨_, rfl⟩

theorem exists_recorded (m : Machine) (operations : List Operation) :
    ∃ history, Recorded m operations history := by
  induction operations generalizing m with
  | nil => exact ⟨[], .nil m⟩
  | cons operation operations ih =>
      obtain ⟨events, records⟩ := operation.exists_records m
      obtain ⟨history, recorded⟩ := ih (operation.apply m)
      exact ⟨events ++ history, .cons records recorded⟩

section Replay

variable {σ : Type} {view : PluginTable → σ} {update : σ → PluginEvent → σ}

theorem Operation.Records.replay (replayed : Replayed view update) {m : Machine}
    {operation : Operation} {events : List PluginEvent} (h : operation.Records m events) :
    view (operation.apply m).plugins = events.foldl update (view m.plugins) := by
  cases operation with
  | load p =>
      obtain rfl := h
      exact replayed.load m p
  | loadByName nickname =>
      obtain rfl := h
      exact replayed.loadByName m nickname
  | unload nameOrAlias =>
      obtain rfl := h
      exact replayed.unload m nameOrAlias
  | run fuel source => exact Chronicle.replay replayed h
  | offer nickname p =>
      obtain rfl := h
      exact replayed.offer m.plugins nickname p
  | defineFunction | register | unregister =>
      obtain rfl := h
      rfl

theorem Recorded.replay (replayed : Replayed view update) {m : Machine}
    {operations : List Operation} {history : List PluginEvent} (h : Recorded m operations history) :
    view (operations.foldl Operation.apply m).plugins = history.foldl update (view m.plugins) := by
  induction h with
  | nil => rfl
  | cons records _ ih => rw [List.foldl_cons, ih, records.replay replayed, List.foldl_append]

end Replay

/-- What a session comes to hold under a name is what its history provides. -/
theorem Recorded.function_eq_some_iff {console : Console} {operations : List Operation}
    {history : List PluginEvent} (h : Recorded (.fresh console) operations history)
    {name plugin : String} {f : PluginFunction} :
    (after console operations).plugins.functions[name]? = some ⟨plugin, f⟩ ↔
      ∃ functions, Provides history name plugin functions ∧
        lastNamed functions name = some f := by
  have nothing : (Machine.fresh console).plugins.functions[name]? = none := by
    have empty : (Machine.fresh console).plugins.functions = ∅ := rfl
    rw [empty]
    rfl
  have replayed : (after console operations).plugins.functions[name]? =
      history.foldl (update name) none := by
    rw [← nothing]
    exact h.replay (replayed_functions name)
  rw [replayed, replay_eq_some_iff]

/-- Every session has a history, and a function belongs to a plugin exactly if the last load that
exposed its name was one of that plugin, and the plugin has been neither unloaded nor loaded again
since. What is called then is the last function of that name that the load exposed. A name that no
plugin provides so is not available. -/
theorem owner_follows_history (console : Console) (operations : List Operation) :
    let table := (after console operations).plugins
    (∃ history, Recorded (.fresh console) operations history) ∧
      ∀ history, Recorded (.fresh console) operations history → ∀ name : String,
        (∀ plugin, table.owner? name = some plugin ↔
          ∃ functions, Provides history name plugin functions) ∧
        (∀ plugin functions, Provides history name plugin functions →
          ∃ f, lastNamed functions name = some f ∧ table.functions[name]? = some ⟨plugin, f⟩) ∧
        ((¬ ∃ plugin functions, Provides history name plugin functions) →
          name ∉ table.functions) := by
  intro table
  refine ⟨exists_recorded _ operations, fun history recorded name => ?_⟩
  have held : ∀ plugin functions, Provides history name plugin functions →
      ∃ f, lastNamed functions name = some f ∧ table.functions[name]? = some ⟨plugin, f⟩ := by
    intro plugin functions provides
    obtain ⟨f, last⟩ := provides.lastNamed
    exact ⟨f, last, recorded.function_eq_some_iff.mpr ⟨functions, provides, last⟩⟩
  have provided : ∀ owned, table.functions[name]? = some owned →
      ∃ functions, Provides history name owned.owner functions := by
    intro owned found
    obtain ⟨functions, provides, -⟩ := recorded.function_eq_some_iff.mp found
    exact ⟨functions, provides⟩
  refine ⟨fun plugin => ⟨?_, ?_⟩, held, ?_⟩
  · intro owner
    obtain ⟨owned, found, rfl⟩ := Option.map_eq_some_iff.mp owner
    exact provided owned found
  · rintro ⟨functions, provides⟩
    obtain ⟨f, -, found⟩ := held plugin functions provides
    exact Option.map_eq_some_iff.mpr ⟨_, found, rfl⟩
  · intro unprovided mem
    obtain ⟨owned, found⟩ := Option.isSome_iff_exists.mp
      (Std.TreeMap.mem_iff_isSome_getElem?.mp mem)
    obtain ⟨functions, provides⟩ := provided owned found
    exact unprovided ⟨owned.owner, functions, provides⟩

end Session

end Scriptlet
