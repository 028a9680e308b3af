import Scriptlet.Proofs.Eval.Steps

/-! # Sessions

What a host does with an interpreter, one operation after the other. What holds in all sessions
holds for all plugins whose setup and functions are settled before they are loaded, and for all
functions of the host that leave the functions, classes and instances alone that they are handed. -/

namespace Scriptlet.Session

/-- An operation of the host. A script is given by its source, and runs with the fuel. -/
inductive Operation where
  | load (p : Plugin)
  | loadByName (nickname : String)
  | unload (nameOrAlias : String)
  | offer (nickname : String) (p : Plugin)
  | run (fuel : Nat) (source : String)
  | defineFunction (name : String) (function : FunctionObject)
  | register (entry : RegistryEntry)
  | unregister (name : String)

/-- The interpreter after an operation, whether or not it succeeds. -/
def Operation.apply (m : Machine) : Operation → Machine
  | load p => (m.load p).2
  | loadByName nickname => (m.loadByName nickname).2
  | unload nameOrAlias => (m.unload nameOrAlias).2
  | offer nickname p => { m with plugins := m.plugins.offer nickname p }
  | run fuel source => (Session.run fuel source).after m
  | defineFunction name f => (m.defineFunction name f).2
  | register entry => { m with registry := m.registry.add entry }
  | unregister name => { m with registry := m.registry.erase name }

def after (console : Console) (operations : List Operation) : Machine :=
  operations.foldl Operation.apply (.fresh console)

/-- What holds of a fresh interpreter and is kept by every operation holds in every session. -/
theorem after_induction {P : Machine → Prop} (fresh : ∀ console, P (.fresh console))
    (keeps : ∀ m operation, P m → P (Operation.apply m operation)) (console : Console)
    (operations : List Operation) : P (after console operations) := by
  have run : ∀ m, P m → P (operations.foldl Operation.apply m) := by
    induction operations with
    | nil => exact fun _ h => h
    | cons operation operations ih => exact fun m h => ih _ (keeps m operation h)
  exact run _ (fresh console)

end Scriptlet.Session
