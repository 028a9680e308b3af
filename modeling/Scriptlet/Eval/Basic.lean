import Scriptlet.Eval.Error
import Scriptlet.Host.Machine

/-! Running computations: what they change, how they end, and the steps that all of them are made
of. A computation that fails keeps what it has done before. -/

namespace Scriptlet

/-- Why a computation ends early: an error of the script, or the end of the fuel. -/
inductive Halt where
  | failed (error : RuntimeError)
  | exhausted
deriving DecidableEq, Repr

/-- A computation that works on an interpreter. -/
abbrev Eval := EStateM Halt Machine

/-- How a statement ends: normally, with its value, or by a return that leaves the function. -/
inductive Flow where
  | normal (value : Value)
  | returned (value : Value)
deriving DecidableEq

def Flow.value : Flow → Value
  | normal value | returned value => value

namespace Eval

def fail {α : Type} (cause : RuntimeCause) (line : Nat) : Eval α :=
  throw (.failed ⟨cause, line⟩)

/-- Turns an error of the script into a result. -/
def attempt {α : Type} (x : Eval α) : Eval (Except RuntimeError α) := fun m =>
  match x m with
  | .ok a m => .ok (.ok a) m
  | .error (.failed e) m => .ok (.error e) m
  | .error .exhausted m => .error .exhausted m

/-- A step that always succeeds. -/
def step {α : Type} (f : Machine → α × Machine) : Eval α :=
  modifyGet f

def onStore {α : Type} (f : Store → α × Store) : Eval α :=
  step fun m =>
    let (a, store) := f m.store
    (a, { m with store })

def newFrame (parent : FrameId) : Eval FrameId :=
  onStore fun s =>
    let (id, scopes) := s.scopes.child parent
    (id, { s with scopes })

def define (f : FrameId) (name : String) (value : Value) : Eval Unit :=
  onStore fun s => ((), { s with scopes := s.scopes.define f name value })

def lookup (f : FrameId) (name : String) (line : Nat) : Eval Value := do
  match (← get).store.scopes.get? f name with
  | some value => return value
  | none => fail (.undefinedVariable name) line

def assign (f : FrameId) (name : String) (value : Value) (line : Nat) : Eval Unit := do
  match (← get).store.scopes.owner? f name with
  | some owner => define owner name value
  | none => fail (.undefinedVariable name) line

def newFunction (f : FunctionObject) : Eval FunctionId :=
  onStore (·.addFunction f)

def newClass (c : ClassObject) : Eval ClassId :=
  onStore (·.addClass c)

/-- A new instance of a class that is not static. -/
def instantiate (id : ClassId) (line : Nat) : Eval Value := do
  let c := (← get).store.classObject id
  if c.isStatic then fail (.staticInstantiation c.name) line
  else return .instanceRef (← onStore (·.addInstance id))

def display (value : Value) : Eval String := do
  return (← get).store.display value

/-- Repeats a round until it gives a result, at most `n` times. -/
def repeated {α β : Type} (round : β → Eval (β ⊕ α)) : Nat → β → Eval α
  | 0, _ => throw .exhausted
  | n + 1, b => do
      match ← round b with
      | .inl next => repeated round n next
      | .inr result => return result

end Eval

end Scriptlet
