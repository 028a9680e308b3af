import Scriptlet.Proofs.Eval.Bonds
import Scriptlet.Proofs.Session.Operations

/-! # Registered functions that nobody calls

Scripts look at the registry only where they call a function by name, and plugins change it without
a look. So what the registry has under a name that nobody calls makes no difference to anything. A
plugin that is loaded meanwhile can bring a function that does call it, and then it is seen. -/

namespace Scriptlet

open Likeness (Answers)

namespace Machine

/-- The same interpreter, but for what the registry has under one name. -/
inductive DifferAt (name : String) : Machine → Machine → Prop where
  | mk {store : Store} {console : Console} {registry registry' : Registry} {plugins : PluginTable}
      {stubs : Table FunctionId}
      (same : ∀ other, other ≠ name → registry'[other]? = registry[other]?) :
      DifferAt name ⟨store, console, registry, plugins, stubs⟩
        ⟨store, console, registry', plugins, stubs⟩

/-- Registering a function makes a difference under its name only. -/
theorem differAt_register (m : Machine) (entry : RegistryEntry) :
    m.DifferAt entry.name { m with registry := m.registry.add entry } := by
  refine ⟨fun other ne => ?_⟩
  simp [Registry.add, Std.TreeMap.getElem?_insert, ne.symm]

/-! ## Plugins -/

namespace DifferAt

variable {name : String} {m m' : Machine}

theorem runSetup (h : m.DifferAt name m') (steps : List SetupStep) :
    Answers (DifferAt name) (m.runSetup steps) (m'.runSetup steps) := by
  induction steps generalizing m m' with
  | nil => exact ⟨h⟩
  | cons step steps ih =>
      obtain ⟨same⟩ := h
      cases step with
      | register resource entry =>
          refine ih ⟨fun other ne => ?_⟩
          simp [Registry.add, Std.TreeMap.getElem?_insert, same other ne]
      | unregister unregistered =>
          refine ih ⟨fun other ne => ?_⟩
          simp [Std.TreeMap.getElem?_erase, same other ne]
      | define | say => exact ih ⟨same⟩
      | fail message => exact ⟨⟨same⟩⟩

theorem removeStub (h : m.DifferAt name m') (stub : String) :
    (m.removeStub stub).DifferAt name (m'.removeStub stub) := by
  obtain ⟨same⟩ := h
  unfold Machine.removeStub
  dsimp only
  split
  · exact ⟨same⟩
  · split
    · split
      · exact ⟨same⟩
      · exact ⟨same⟩
    · exact ⟨same⟩

theorem expose (h : m.DifferAt name m') (f : PluginFunction) :
    (m.expose f).DifferAt name (m'.expose f) := by
  obtain ⟨same⟩ := h
  exact ⟨same⟩

theorem writeLine (h : m.DifferAt name m') (text : String) :
    (m.writeLine text).DifferAt name (m'.writeLine text) := by
  obtain ⟨same⟩ := h
  exact ⟨same⟩

theorem foldl {α : Type} {change : Machine → α → Machine}
    (keeps : ∀ {m m'} a, m.DifferAt name m' → (change m a).DifferAt name (change m' a))
    (as : List α) (h : m.DifferAt name m') :
    (as.foldl change m).DifferAt name (as.foldl change m') := by
  induction as generalizing m m' with
  | nil => exact h
  | cons a as ih => exact ih (keeps a h)

theorem load (h : m.DifferAt name m') (p : Plugin) :
    Answers (DifferAt name) (m.load p) (m'.load p) := by
  have started := h.writeLine ("Loading plugin: " ++ p.name ++ " v" ++ p.version)
  obtain ⟨result, n, n', eq, eq', differ⟩ := (started.runSetup p.setup).parts
  simp only [Machine.load, eq, eq']
  cases result with
  | error e => exact ⟨differ.writeLine _⟩
  | ok =>
      obtain ⟨same⟩ := differ
      refine ⟨writeLine ?_ _⟩
      exact foldl (fun f h => h.expose f) _ (foldl (fun stub h => h.removeStub stub) _ ⟨same⟩)

theorem loadByName (h : m.DifferAt name m') (nickname : String) :
    Answers (DifferAt name) (m.loadByName nickname) (m'.loadByName nickname) := by
  have plugins : m'.plugins = m.plugins := by
    obtain ⟨-⟩ := h
    rfl
  simp only [Machine.loadByName, plugins]
  cases m.plugins.find? nickname with
  | none => exact ⟨h.writeLine _⟩
  | some p =>
      obtain ⟨result, n, n', eq, eq', differ⟩ := (h.load p).parts
      simp only [eq, eq']
      obtain ⟨same⟩ := differ
      cases result with
      | error e => exact ⟨⟨same⟩⟩
      | ok => exact ⟨⟨same⟩⟩

theorem unload (h : m.DifferAt name m') (nameOrAlias : String) :
    Answers (DifferAt name) (m.unload nameOrAlias) (m'.unload nameOrAlias) := by
  obtain ⟨same⟩ := h
  unfold Machine.unload
  dsimp only
  split
  · exact ⟨⟨same⟩⟩
  · exact ⟨foldl (fun stub h => h.removeStub stub) _ ⟨same⟩⟩

end DifferAt

end Machine

/-! ## What is called -/

namespace Machine

variable {calls : String → Prop}

theorem loadByName_available (m : Machine) (nickname : String) :
    (m.loadByName nickname).2.plugins.available = m.plugins.available := by
  have load (p : Plugin) : (m.load p).2.plugins.available = m.plugins.available := by
    have kept := m.keeps_setUp p
    rcases m.load_cases p with ⟨e, ready, setup, eq⟩ | ⟨ready, setup, eq⟩
    · rw [setup] at kept
      rw [eq]
      exact congrArg PluginTable.available kept.plugins
    · rw [setup] at kept
      rw [eq]
      show (ready.enlist p).plugins.available = m.plugins.available
      rw [enlist_plugins]
      show ready.plugins.available = m.plugins.available
      exact congrArg PluginTable.available kept.plugins
  unfold loadByName
  split
  · rfl
  · rename_i p _
    have loaded := load p
    cases result : m.load p with
    | mk outcome n =>
        rw [result] at loaded
        cases outcome <;> exact loaded

/-- All bodies that plugins bring call only the given names. -/
def OffersOnly (calls : String → Prop) (m : Machine) : Prop :=
  ∀ body, m.plugins.Offers body → ∀ s ∈ body, s.CallsOnly calls

theorem OffersOnly.congr {m n : Machine} (h : m.OffersOnly calls)
    (available : n.plugins.available = m.plugins.available) : n.OffersOnly calls := by
  rintro body ⟨nickname, p, found, makes⟩
  exact h body ⟨nickname, p, available ▸ found, makes⟩

theorem unload_available (m : Machine) (nameOrAlias : String) :
    (m.unload nameOrAlias).2.plugins.available = m.plugins.available := by
  unfold unload
  split
  · rfl
  · dsimp only
    rw [removeStubs_plugins]
    rfl

/-- An interpreter and itself, as long as its functions call only the given names. -/
def callingOnly (calls : String → Prop) : Bond where
  calls := calls
  anyFrame := True
  rel m m' := m' = m ∧ m.CallsOnly calls ∧ m.OffersOnly calls
  astray _ := False
  same := by
    rintro m _ ⟨rfl, -⟩
    rfl
  registry := by
    rintro m _ ⟨rfl, -⟩ name -
    rfl
  bodies h id := h.2.1.function id
  scopes _ _ := .inl trivial
  change := by
    rintro m _ ⟨rfl, bodies, offers⟩ c fits
    exact ⟨rfl, bodies.change fits, offers.congr (by cases c <;> rfl)⟩
  load := by
    rintro - m _ ⟨rfl, bodies, offers⟩ nickname
    refine .inl ⟨rfl, ?_, offers.congr (loadByName_available _ nickname)⟩
    exact bodies.of_variesInGlobals (loadByName_variesInGlobals _ nickname) offers
  unload := by
    rintro - m _ ⟨rfl, bodies, offers⟩ nameOrAlias
    refine ⟨rfl, ?_, offers.congr (unload_available _ nameOrAlias)⟩
    exact bodies.of_variesInGlobals (unload_variesInGlobals _ nameOrAlias) fun _ => False.elim
  stays _ := id

end Machine

/-! ## Scripts -/

/-- Interpreters that differ under a name that no body calls. Once there is one that does, all is
lost. -/
def Bond.exceptEntry (name : String) : Bond where
  calls other := other ≠ name
  anyFrame := True
  rel m m' := m.DifferAt name m' ∧ m.CallsOnly (· ≠ name)
  astray m := ¬ m.CallsOnly (· ≠ name)
  same := by
    rintro _ _ ⟨⟨-⟩, -⟩
    rfl
  registry := by
    rintro _ _ ⟨⟨same⟩, -⟩
    exact same
  bodies h id := h.2.function id
  scopes _ _ := .inl trivial
  change := by
    rintro _ _ ⟨⟨same⟩, bodies⟩ c fits
    refine ⟨?_, bodies.change fits⟩
    cases c <;> exact ⟨same⟩
  load := by
    rintro - m m' ⟨differ, -⟩ nickname
    by_cases bodies : (m.loadByName nickname).2.CallsOnly (· ≠ name)
    · obtain ⟨result, n, n', eq, eq', differ⟩ := (differ.loadByName nickname).parts
      rw [eq] at bodies
      rw [eq, eq']
      exact .inl ⟨differ, bodies⟩
    · exact .inr bodies
  unload := by
    rintro - m m' ⟨differ, bodies⟩ nameOrAlias
    have bodies := bodies.of_variesInGlobals (m.unload_variesInGlobals nameOrAlias)
      fun _ => False.elim
    obtain ⟨result, n, n', eq, eq', differ⟩ := (differ.unload nameOrAlias).parts
    rw [eq] at bodies
    rw [eq, eq']
    exact ⟨differ, bodies⟩
  stays step lost bodies := lost (bodies.of_within step.within)

namespace Session

open Machine

/-- At the end of a run no function calls other names than at its start, if neither the program does
nor a function of a plugin that can be loaded. -/
theorem callsOnly_after_interpret {calls : String → Prop} {m : Machine} (bodies : m.CallsOnly calls)
    (offers : m.OffersOnly calls) {program : Program}
    (called : ∀ name ∈ program.callees, calls name) (fuel : Nat) :
    ((interpret fuel program).after m).CallsOnly calls := by
  have tied := tied_interpret (B := callingOnly calls) (k := 0)
    (Stmt.forall_mem_calleesEach.mp called) (.inl trivial) fuel
  have ran := tied.ties m m ⟨rfl, bodies, offers⟩ (Nat.zero_le _)
  unfold Eval.after
  generalize interpret fuel program m = r at ran
  cases ran with
  | ok kept => exact kept.2.1
  | error kept => exact kept.2.1
  | astray lost => exact lost.elim

/-- Runs that end in the same way, with interpreters that differ under one name of the registry at
most: all that was written is the same, and so is what was read. -/
inductive SameBut (name : String) {α : Type} :
    EStateM.Result Halt Machine α → EStateM.Result Halt Machine α → Prop where
  | ok {a : α} {n n' : Machine} : n.DifferAt name n' → SameBut name (.ok a n) (.ok a n')
  | error {halt : Halt} {n n' : Machine} : n.DifferAt name n' →
      SameBut name (.error halt n) (.error halt n')

theorem SameBut.console_eq {name : String} {α : Type} {r r' : EStateM.Result Halt Machine α}
    (h : SameBut name r r') : (Eval.left r).console = (Eval.left r').console := by
  rcases h with ⟨⟨-⟩⟩ | ⟨⟨-⟩⟩
  · rfl
  · rfl

theorem SameBut.of_tied {name : String} {α : Type} {x : Eval α} {m m' : Machine}
    (tied : Eval.Tied (.exceptEntry name) 0 x x) (differ : m.DifferAt name m')
    (spared : (x.after m).CallsOnly (· ≠ name)) : SameBut name (x m) (x m') := by
  have bodies : m.CallsOnly (· ≠ name) := by
    by_contra lost
    exact (tied.steps m).preserve (fun _ _ step => (Bond.exceptEntry name).stays step) lost spared
  have ran := tied.ties m m' ⟨differ, bodies⟩ (Nat.zero_le _)
  unfold Eval.after at spared
  generalize x m = r at ran spared
  generalize x m' = r' at ran
  cases ran with
  | ok differ => exact .ok differ.1
  | error differ => exact .error differ.1
  | astray lost => exact absurd spared lost

end Session

end Scriptlet
