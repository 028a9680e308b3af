import Scriptlet.Proofs.Session.Operations

/-! # All that a host can do

Beside the operations of a session, a host runs programs, statements and expressions that it has, in
any frame; it makes frames that lie in no other, binds and frees names, sets fields, registers
functions that hold values, and calls functions. The values that it uses are described by
blueprints. -/

namespace Scriptlet

def Blueprint.buildAll : List Blueprint → Store → List Value × Store
  | [], s => ([], s)
  | design :: designs, s =>
      let (value, s) := design.build s
      let (values, s) := buildAll designs s
      (value :: values, s)

/-- The interpreter with a new frame that lies in no other. -/
def Machine.withRoot (m : Machine) : Machine :=
  { m with store := { m.store with scopes := m.store.scopes.root.2 } }

namespace Session

/-- Something that a host does with an interpreter. Whatever runs does so with the fuel. -/
inductive Action where
  | operation (o : Operation)
  | interpret (fuel : Nat) (program : Program)
  | execute (fuel : Nat) (s : Stmt) (f : FrameId)
  | evaluate (fuel : Nat) (e : Expr) (f : FrameId)
  | root
  | define (f : FrameId) (name : String) (design : Blueprint)
  | remove (f : FrameId) (name : String)
  | setField (object : Blueprint) (name : String) (design : Blueprint)
  | register (resource : Blueprint) (entry : Value → RegistryEntry)
  | callPlugin (name : String) (args : List Blueprint)
  | callRegistered (name : String) (args : List Blueprint)

/-- The interpreter after an action, whether or not it succeeds. -/
def Action.apply (m : Machine) : Action → Machine
  | operation o => o.apply m
  | interpret fuel program => (Session.interpret fuel program).after m
  | execute fuel s f => ((Evaluator.ofFuel fuel).exec s f).after m
  | evaluate fuel e f => ((Evaluator.ofFuel fuel).eval e f).after m
  | root => m.withRoot
  | define f name design =>
      let (value, store) := design.build m.store
      { m with store := { store with scopes := store.scopes.define f name value } }
  | remove f name =>
      { m with store := { m.store with scopes := m.store.scopes.remove f name } }
  | setField object name design =>
      let (object, store) := object.build m.store
      let (value, store) := design.build store
      match object with
      | .instanceRef id => { m with store := store.setField id name value }
      | _ => { m with store }
  | register resource entry =>
      let (value, store) := resource.build m.store
      { m with store, registry := m.registry.add (entry value) }
  | callPlugin name args =>
      let (values, store) := Blueprint.buildAll args m.store
      ({ m with store }.callPlugin name values).2
  | callRegistered name args =>
      let (values, store) := Blueprint.buildAll args m.store
      ({ m with store }.callRegistered name values).2

def performed (console : Console) (actions : List Action) : Machine :=
  actions.foldl Action.apply (.fresh console)

/-- Running a text is running what could be read of it. -/
theorem after_run (fuel : Nat) (source : String) (m : Machine) :
    (run fuel source).after m = (interpret fuel (Script.ofSource source).program).after m := by
  simp only [Eval.after, run, Bind.bind, EStateM.bind]
  cases interpret fuel (Script.ofSource source).program m with
  | ok result n => cases result <;> rfl
  | error halt n => rfl

end Session

end Scriptlet
