import Scriptlet.Proofs.Session.Bookkeeping
import Scriptlet.Proofs.Session.Builtins
import Scriptlet.Proofs.Session.History

/-! # What an alias leads to

The table of plugins knows for every alias at most one plugin. It is the one that the history gives:
the plugin of the last load by that alias, upper and lower case being the same, as long as the
plugin has neither been unloaded nor loaded again. -/

namespace Scriptlet

open PluginEvent

namespace PluginEvent

/-- A load by an alias that is the given one in lower case. -/
def LoadsAs (nickname : String) : PluginEvent → Prop
  | loaded (some other) _ _ => Text.lowercase other = Text.lowercase nickname
  | loaded none _ _ | unloaded _ => False

/-- What the event notes under a lower-case alias. -/
def nicknamed (key : String) : PluginEvent → Option String
  | loaded (some nickname) plugin _ => if Text.lowercase nickname = key then some plugin else none
  | loaded none _ _ | unloaded _ => none

end PluginEvent

/-- The last load by the alias was one of the plugin, and the plugin has been neither unloaded nor
loaded again since. -/
def StandsFor (history : List PluginEvent) (nickname plugin : String) : Prop :=
  ∃ before other functions since,
    history = before ++ .loaded (some other) plugin functions :: since ∧
      Text.lowercase other = Text.lowercase nickname ∧
      ∀ event ∈ since, ¬ event.LoadsAs nickname ∧ ¬ event.Replaces plugin

/-- The name of a loaded plugin stands for itself. Any other text leads to the plugin that it is an
alias for by the history, if it is one. -/
structure PluginTable.ResolvesBy (t : PluginTable) (history : List PluginEvent) : Prop where
  named : ∀ x ∈ t.names, t.resolve? x = some x
  nicknamed : ∀ x ∉ t.names, ∀ plugin,
    t.resolve? x = some plugin ↔ StandsFor history x plugin
  unknown : ∀ x ∉ t.names, (¬ ∃ plugin, StandsFor history x plugin) → t.resolve? x = none

/-! ## Histories -/

theorem nicknamed_eq_some_iff {event : PluginEvent} {nickname plugin : String} :
    event.nicknamed (Text.lowercase nickname) = some plugin ↔
      ∃ other functions, event = .loaded (some other) plugin functions ∧
        Text.lowercase other = Text.lowercase nickname := by
  cases event with
  | unloaded p => simp [nicknamed]
  | loaded other p functions =>
      cases other with
      | none => simp [nicknamed]
      | some other =>
          simp only [nicknamed, Option.ite_none_right_eq_some, Option.some.injEq, loaded.injEq]
          constructor
          · rintro ⟨same, rfl⟩
            exact ⟨other, functions, ⟨rfl, rfl, rfl⟩, same⟩
          · rintro ⟨_, _, ⟨rfl, rfl, -⟩, same⟩
            exact ⟨same, rfl⟩

theorem nicknamed_eq_none_iff {event : PluginEvent} {nickname : String} :
    event.nicknamed (Text.lowercase nickname) = none ↔ ¬ event.LoadsAs nickname := by
  cases event with
  | unloaded p => simp [nicknamed, LoadsAs]
  | loaded other p functions =>
      cases other with
      | none => simp [nicknamed, LoadsAs]
      | some other => simp [nicknamed, LoadsAs]

/-- Replaying a history gives the plugin that the alias leads to. -/
theorem replay_eq_some_iff_leadsTo {history : List PluginEvent} {nickname plugin : String} :
    history.foldl (refresh (nicknamed (Text.lowercase nickname)) id) none = some plugin ↔
      StandsFor history nickname plugin := by
  rw [replay_refresh_eq_some_iff]
  simp only [nicknamed_eq_none_iff, nicknamed_eq_some_iff]
  constructor
  · rintro ⟨before, _, since, rfl, ⟨other, functions, rfl, same⟩, quiet⟩
    exact ⟨before, other, functions, since, rfl, same, quiet⟩
  · rintro ⟨before, other, functions, since, rfl, same, quiet⟩
    exact ⟨before, _, since, rfl, ⟨other, functions, rfl, same⟩, quiet⟩

/-! ## Loading and unloading -/

namespace Machine

/-- A plugin that is taken in loses the aliases it had, and so does one that is unloaded. -/
theorem replayed_aliases (key : String) :
    Replayed (fun t => t.aliases[key]?) (refresh (nicknamed key) id) where
  load m p := by
    rcases m.load_outcome p with ⟨e, -, kept, events⟩ | ⟨functions, -, -, table, events⟩
    · rw [kept.plugins, events]
      rfl
    · rw [table, events]
      exact PluginTable.getElem?_aliases_remove
  loadByName m nickname := by
    rcases m.loadByName_outcome nickname with
      ⟨e, -, kept, events⟩ | ⟨p, functions, -, -, table, events⟩
    · rw [kept.plugins, events]
      rfl
    · have removed : (m.plugins.install p functions).2.aliases[key]? =
          m.plugins.aliases[key]?.filter (· ≠ p.name) := PluginTable.getElem?_aliases_remove
      rw [table, events, PluginTable.getElem?_aliases_recordAlias, removed, List.foldl_cons,
        List.foldl_nil, refresh, nicknamed]
      split
      · rfl
      · rfl
  unload m nameOrAlias := by
    rcases m.unload_outcome nameOrAlias with ⟨-, kept, events⟩ | ⟨plugin, -, dropped, events⟩
    · rw [kept, events]
      rfl
    · rw [dropped, events, removeStubs_plugins]
      exact PluginTable.getElem?_aliases_remove
  offer _ _ _ := rfl

end Machine

/-- Where aliases lead to loaded plugins, a text that is no name stands for what it is noted for. -/
theorem PluginTable.Consistent.resolve?_eq {t : PluginTable} (h : t.Consistent) {x : String}
    (unloaded : x ∉ t.names) : t.resolve? x = t.aliases[Text.lowercase x]? := by
  rw [resolve?, if_neg (isLoaded_iff.not.mpr unloaded)]
  cases noted : t.aliases[Text.lowercase x]? with
  | none => rfl
  | some plugin =>
      have isLoaded := isLoaded_iff.mpr (h.loaded _ plugin noted)
      rw [Option.filter_some, if_pos isLoaded]

theorem PluginTable.Consistent.resolvesBy {t : PluginTable} (h : t.Consistent)
    {history : List PluginEvent}
    (replayed : ∀ key : String, t.aliases[key]? = history.foldl (refresh (nicknamed key) id) none) :
    t.ResolvesBy history := by
  have nicknamed : ∀ x ∉ t.names, ∀ plugin,
      t.resolve? x = some plugin ↔ StandsFor history x plugin := by
    intro x unloaded plugin
    rw [h.resolve?_eq unloaded, replayed, replay_eq_some_iff_leadsTo]
  refine ⟨fun x mem => resolve?_of_mem_names mem, nicknamed, fun x unloaded nowhere => ?_⟩
  rw [Option.eq_none_iff_forall_ne_some]
  exact fun plugin found => nowhere ⟨plugin, (nicknamed x unloaded plugin).mp found⟩

namespace Session

open Machine

theorem Reachable.bookkept {console : Console} {operations : List Operation} {m : Machine}
    (h : Reachable console operations m) : m.Bookkept := by
  have start : (after console operations).Bookkept :=
    after_induction bookkept_fresh (fun _ operation => bookkept_apply operation) console operations
  exact Steps.preserve (fun _ _ step books => books.step step) h start

/-- Every session has a history, and so has a script that is running. In each of its states, names
and aliases lead where the history says. A load that fails, by an alias or not, changes nothing
about this. -/
theorem aliases_follow_history (console : Console) (operations : List Operation) :
    (∃ history, Recorded (.fresh console) operations history) ∧
      (∀ history, Recorded (.fresh console) operations history →
        ∀ m, Reachable console operations m →
          (∃ events, (after console operations).Chronicle events m) ∧
          ∀ events, (after console operations).Chronicle events m →
            m.plugins.ResolvesBy (history ++ events)) ∧
      ∀ m : Machine,
        (∀ p e, (m.load p).1 = .error e →
          ∀ x, (m.load p).2.plugins.resolve? x = m.plugins.resolve? x) ∧
        ∀ nickname e, (m.loadByName nickname).1 = .error e →
          ∀ x, (m.loadByName nickname).2.plugins.resolve? x = m.plugins.resolve? x := by
  refine ⟨exists_recorded _ operations, fun history recorded m reachable => ?_, fun m => ⟨?_, ?_⟩⟩
  · refine ⟨Steps.chronicle reachable, fun events chronicle => ?_⟩
    refine reachable.bookkept.table.resolvesBy fun key => ?_
    have nothing : (Machine.fresh console).plugins.aliases[key]? = none := by
      have empty : (Machine.fresh console).plugins.aliases = ∅ := rfl
      rw [empty]
      rfl
    have before : (after console operations).plugins.aliases[key]? =
        history.foldl (refresh (nicknamed key) id) none := by
      rw [← nothing]
      exact recorded.replay (replayed_aliases key)
    rw [List.foldl_append, ← before]
    exact chronicle.replay (replayed_aliases key)
  · intro p e failed x
    rcases m.load_outcome p with ⟨-, -, kept, -⟩ | ⟨functions, loaded, -⟩
    · rw [kept.plugins]
    · rw [failed] at loaded
      cases loaded
  · intro nickname e failed x
    rcases m.loadByName_outcome nickname with ⟨-, -, kept, -⟩ | ⟨p, functions, loaded, -⟩
    · rw [kept.plugins]
    · rw [failed] at loaded
      cases loaded

end Session

end Scriptlet
