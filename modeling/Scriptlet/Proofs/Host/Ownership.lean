import Scriptlet.Proofs.Host.Bookkeeping
import Mathlib.Data.List.Induction

/-! # Whom a function belongs to

The table of plugins knows the current owner of every function only. It is the one that the history
of loads and unloads gives: the plugin of the last load that exposed the name, as long as that
plugin has neither been unloaded nor loaded again. -/

namespace Scriptlet

/-- What happens to the loaded plugins. A load is noted with the alias that it went by, if any, and
with the functions that the plugin exposed; one that fails is not noted. -/
inductive PluginEvent where
  | loaded (nickname : Option String) (plugin : String) (functions : List PluginFunction)
  | unloaded (plugin : String)

/-- The last one of the functions that has the given name. -/
def PluginFunction.lastNamed (functions : List PluginFunction) (name : String) :
    Option PluginFunction :=
  (functions.filter (·.name = name)).getLast?

namespace PluginEvent

def Exposes (name : String) : PluginEvent → Prop
  | loaded _ _ functions => ∃ f ∈ functions, f.name = name
  | unloaded _ => False

def Replaces (plugin : String) : PluginEvent → Prop
  | loaded _ p _ | unloaded p => plugin = p

instance (plugin : String) : (event : PluginEvent) → Decidable (event.Replaces plugin)
  | loaded _ p _ | unloaded p => inferInstanceAs (Decidable (plugin = p))

/-- What the table holds under a name after an event, given what it held before. -/
def update (name : String) (held : Option OwnedFunction) : PluginEvent → Option OwnedFunction
  | loaded _ plugin functions =>
      ((PluginFunction.lastNamed functions name).map (⟨plugin, ·⟩)).or
        (held.filter (·.owner ≠ plugin))
  | unloaded plugin => held.filter (·.owner ≠ plugin)

end PluginEvent

open PluginEvent PluginFunction

/-! ## The table of plugins -/

namespace PluginTable

theorem getElem?_enter_eq (owner : String) (table : Table OwnedFunction)
    (functions : List PluginFunction) (name : String) :
    (enter owner table functions)[name]? =
      ((lastNamed functions name).map (⟨owner, ·⟩)).or table[name]? := by
  induction functions generalizing table with
  | nil => rfl
  | cons f functions ih =>
      have first : (enter owner table (f :: functions))[name]? =
          (enter owner (table.insert f.name ⟨owner, f⟩) functions)[name]? := rfl
      rw [first, ih, Std.TreeMap.getElem?_insert]
      by_cases same : f.name = name
      · cases later : lastNamed functions name with
        | none =>
            have none_left : functions.filter (·.name = name) = [] := by
              simpa [lastNamed] using later
            simp [lastNamed, same, none_left]
        | some g =>
            have last : (functions.filter (·.name = name)).getLast? = some g := later
            simp [lastNamed, same, List.getLast?_cons, last]
      · simp [lastNamed, same]

theorem getElem?_install (t : PluginTable) (p : Plugin) (functions : List PluginFunction)
    (nickname : Option String) (name : String) :
    (t.install p functions).2.functions[name]? =
      update name t.functions[name]? (.loaded nickname p.name functions) := by
  have entered : (t.install p functions).2.functions =
    enter p.name (t.remove p.name).functions functions := rfl
  rw [entered, getElem?_enter_eq, getElem?_functions_remove]
  rfl

end PluginTable

/-! ## Histories -/

/-- What is held in a place after an event: what the event puts there, or else what was held before,
as long as it does not belong to a plugin that is unloaded or loaded again. -/
def PluginEvent.refresh {β : Type} (puts : PluginEvent → Option β) (plugin : β → String)
    (held : Option β) (event : PluginEvent) : Option β :=
  (puts event).or (held.filter fun b => ¬ event.Replaces (plugin b))

section Replay

variable {β : Type} {puts : PluginEvent → Option β} {plugin : β → String} {b : β}

theorem refresh_eq_some_iff {held : Option β} {event : PluginEvent} :
    refresh puts plugin held event = some b ↔
      puts event = some b ∨ (held = some b ∧ puts event = none ∧ ¬ event.Replaces (plugin b)) := by
  rw [refresh, Option.or_eq_some_iff, Option.filter_eq_some_iff, decide_eq_true_iff]
  exact or_congr_right and_left_comm

/-- Replaying a history gives what the last event has put there that put anything, if no event since
has unloaded its plugin or loaded it again. -/
theorem replay_refresh_eq_some_iff {history : List PluginEvent} :
    history.foldl (refresh puts plugin) none = some b ↔
      ∃ before event since, history = before ++ event :: since ∧ puts event = some b ∧
        ∀ later ∈ since, puts later = none ∧ ¬ later.Replaces (plugin b) := by
  induction history using List.reverseRecOn with
  | nil => simp
  | append_singleton history event ih =>
      rw [List.foldl_append, List.foldl_cons, List.foldl_nil, refresh_eq_some_iff, ih]
      constructor
      · rintro (puts | ⟨⟨before, first, since, rfl, puts, quiet⟩, after⟩)
        · exact ⟨history, event, [], rfl, puts, by simp⟩
        · refine ⟨before, first, since ++ [event], by simp, puts, ?_⟩
          exact List.forall_mem_append.mpr ⟨quiet, by simpa using after⟩
      · -- The last event either is the one in question or has happened since.
        rintro ⟨before, first, since, split, puts, quiet⟩
        rcases List.eq_nil_or_concat since with rfl | ⟨since, last, rfl⟩
        · obtain ⟨-, last⟩ := List.append_inj' split rfl
          obtain rfl := List.singleton_inj.mp last
          exact .inl puts
        · rw [List.concat_eq_append, ← List.cons_append, ← List.append_assoc] at split
          obtain ⟨rfl, same⟩ := List.append_inj' split rfl
          obtain rfl := List.singleton_inj.mp same
          refine .inr ⟨⟨before, first, since, rfl, puts, ?_⟩, quiet event (by simp)⟩
          exact fun later mem => quiet later (by simp [mem])

end Replay

/-- The last load that exposed the name was one of the plugin with these functions, and the plugin
has been neither unloaded nor loaded again since. -/
def Provides (history : List PluginEvent) (name plugin : String)
    (functions : List PluginFunction) : Prop :=
  ∃ before nickname since, history = before ++ .loaded nickname plugin functions :: since ∧
    (∃ f ∈ functions, f.name = name) ∧
    ∀ event ∈ since, ¬ event.Exposes name ∧ ¬ event.Replaces plugin

theorem isSome_lastNamed {functions : List PluginFunction} {name : String} :
    (lastNamed functions name).isSome ↔ ∃ f ∈ functions, f.name = name := by
  simp [lastNamed]

theorem Provides.lastNamed {history : List PluginEvent} {name plugin : String}
    {functions : List PluginFunction} (h : Provides history name plugin functions) :
    ∃ f, lastNamed functions name = some f := by
  obtain ⟨_, _, _, -, exposes, -⟩ := h
  exact Option.isSome_iff_exists.mp (isSome_lastNamed.mpr exposes)

/-- What the event puts into the table under the name. -/
def PluginEvent.provided (name : String) : PluginEvent → Option OwnedFunction
  | loaded _ plugin functions => (lastNamed functions name).map (⟨plugin, ·⟩)
  | unloaded _ => none

theorem update_eq_refresh (name : String) : update name = refresh (provided name) (·.owner) := by
  funext held event
  cases event with
  | loaded nickname plugin functions => rfl
  | unloaded plugin => rfl

theorem provided_eq_some_iff {event : PluginEvent} {name plugin : String} {f : PluginFunction} :
    event.provided name = some ⟨plugin, f⟩ ↔
      ∃ nickname functions, event = .loaded nickname plugin functions ∧
        lastNamed functions name = some f := by
  cases event with
  | unloaded p => simp [provided]
  | loaded nickname p functions =>
      simp only [provided, Option.map_eq_some_iff, OwnedFunction.mk.injEq, loaded.injEq]
      constructor
      · rintro ⟨f, last, rfl, rfl⟩
        exact ⟨_, _, ⟨rfl, rfl, rfl⟩, last⟩
      · rintro ⟨_, _, ⟨-, rfl, rfl⟩, last⟩
        exact ⟨f, last, rfl, rfl⟩

theorem provided_eq_none_iff {event : PluginEvent} {name : String} :
    event.provided name = none ↔ ¬ event.Exposes name := by
  cases event with
  | unloaded p => simp [provided, Exposes]
  | loaded nickname p functions =>
      rw [provided, Option.map_eq_none_iff, Exposes, ← isSome_lastNamed]
      simp

/-- Replaying a history gives the function of the load that provides the name, the last one if the
load exposed several. -/
theorem replay_eq_some_iff {history : List PluginEvent} {name plugin : String}
    {f : PluginFunction} :
    history.foldl (update name) none = some ⟨plugin, f⟩ ↔
      ∃ functions, Provides history name plugin functions ∧
        lastNamed functions name = some f := by
  rw [update_eq_refresh, replay_refresh_eq_some_iff]
  simp only [provided_eq_none_iff]
  constructor
  · rintro ⟨before, event, since, rfl, puts, quiet⟩
    obtain ⟨nickname, functions, rfl, last⟩ := provided_eq_some_iff.mp puts
    have exposes := isSome_lastNamed.mp (Option.isSome_of_eq_some last)
    exact ⟨functions, ⟨before, nickname, since, rfl, exposes, quiet⟩, last⟩
  · rintro ⟨functions, ⟨before, nickname, since, rfl, -, quiet⟩, last⟩
    exact ⟨before, _, since, rfl, provided_eq_some_iff.mpr ⟨nickname, functions, rfl, last⟩, quiet⟩

end Scriptlet
