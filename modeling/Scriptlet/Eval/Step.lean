import Scriptlet.Eval.Basic
import Scriptlet.Eval.Operator

/-! How expressions and statements run, given how their parts run. -/

namespace Scriptlet

/-- A way to run expressions and statements in a frame. -/
structure Evaluator where
  eval : Expr → FrameId → Eval Value
  exec : Stmt → FrameId → Eval Flow

namespace Evaluator

open Eval

/-- The value of a name. The name of a class stands for a new instance of it. -/
def evalName (f : FrameId) (name : String) (line : Nat) : Eval Value := do
  match ← lookup f name line with
  | .classRef id => instantiate id line
  | value => return value

/-- The value of an optional expression; an absent one is null. -/
def evalOption (ev : Evaluator) (f : FrameId) : Option Expr → Eval Value
  | some e => ev.eval e f
  | none => return .null

def evalAll (ev : Evaluator) (f : FrameId) : List Expr → Eval (List Value)
  | [] => return []
  | e :: es => do
      let value ← ev.eval e f
      let values ← evalAll ev f es
      return value :: values

def evalMember (object : Value) (name : String) (line : Nat) : Eval Value := do
  let store := (← get).store
  match object with
  | .instanceRef id =>
      match store.instanceMember? id name with
      | some value => return value
      | none =>
          let className := (store.classObject (store.instanceObject id).classId).name
          fail (.memberNotFound name (some className)) line
  | .classRef id =>
      match store.classMember? id name with
      | some value => return value
      | none => fail (.memberNotFound name none) line
  | _ => fail (.memberNotFound name none) line

/-- Assigns to a name. A plain assignment does not look at the current value. -/
def assignName (f : FrameId) (op : AssignOp) (name : String) (value : Value) (line : Nat) :
    Eval Value := do
  let current ← if op = .set then pure Value.null else lookup f name line
  let stored := op.apply current value
  assign f name stored line
  return stored

/-- Assigns to a field. A field that is not there yet counts as zero. -/
def assignField (object : Value) (op : AssignOp) (name : String) (value : Value) (line : Nat) :
    Eval Value := do
  match object with
  | .instanceRef id =>
      onStore fun s =>
        let current := (s.field? id name).getD (.number 0.0)
        let stored := op.apply current value
        (stored, s.setField id name stored)
  | _ => fail (.propertyOnNonObject name) line

/-- An assignment. The value comes before the object of the field. -/
def evalAssign (ev : Evaluator) (f : FrameId) (op : AssignOp) (target value : Expr) (line : Nat) :
    Eval Value := do
  let value ← ev.eval value f
  match target with
  | .identifier _ name => assignName f op name value line
  | .member _ object name =>
      let object ← ev.eval object f
      assignField object op name value line
  | _ => fail .invalidTarget line

/-- Runs statements in a frame up to a return. The value is that of the last one. -/
def execAll (ev : Evaluator) (f : FrameId) : Value → List Stmt → Eval Flow
  | last, [] => return .normal last
  | _, s :: ss => do
      match ← ev.exec s f with
      | .normal value => execAll ev f value ss
      | .returned value => return .returned value

/-- Binds parameters in `frame` to arguments that are evaluated in `f`, one after the other. -/
def bindArguments (ev : Evaluator) (f frame : FrameId) : List String → List Expr → Eval Unit
  | param :: params, arg :: args => do
      define frame param (← ev.eval arg f)
      bindArguments ev f frame params args
  | _, _ => return ()

/-- Calls a function of the store. Its parameters live in a frame around that of its body; a stub
yields null once its arguments are evaluated. -/
def callFunction (ev : Evaluator) (f : FrameId) (id : FunctionId) (args : List Expr) (line : Nat) :
    Eval Value := do
  let function := (← get).store.function id
  if args.length = function.params.length then
    let frame ← newFrame (function.scope.getD Scopes.globals)
    bindArguments ev f frame function.params args
    match function.body with
    | none => return .null
    | some body =>
        let inner ← newFrame frame
        let flow ← execAll ev inner .null body
        return flow.value
  else fail (.arity function.params.length args.length) line

def callBuiltin (builtin : Builtin) (args : List Value) : Eval Value := do
  match builtin, args with
  | .print, [] => step fun m => (.null, m.writeLine "")
  | .print, value :: _ => step fun m => (.null, m.writeLine (m.store.display value))
  | .input, _ => step fun m =>
      let console := match args with
        | prompt :: _ => m.console.write (m.store.display prompt)
        | [] => m.console
      let (line, console) := console.readLine
      (toValue line, { m with console })
  | .length, .string s :: _ => return toValue s.length
  | .length, _ => return .number 0.0
  | .loadPlugin, nickname :: _ => step fun m =>
      let (loaded, m) := m.loadByName (m.store.display nickname)
      (.bool loaded.toBool, m)
  | .unloadPlugin, name :: _ => step fun m =>
      let (_, m) := m.unload (m.store.display name)
      (.bool true, m)
  | .loadPlugin, [] | .unloadPlugin, [] => return .bool false
  | .listPlugins, _ => step fun m =>
      let names := ", ".intercalate m.plugins.names
      (.string names, m.writeLine ("Loaded plugins: " ++ names))

def callValue (ev : Evaluator) (f : FrameId) (callee : Expr) (args : List Expr) (line : Nat) :
    Eval Value := do
  match ← ev.eval callee f with
  | .functionRef id => callFunction ev f id args line
  | _ => fail .notCallable line

/-- Calls a function by name: one that every script can call, else one of a plugin, else a
registered one, else what the name stands for. Which it is, is decided before the arguments are
evaluated. -/
def callName (ev : Evaluator) (f : FrameId) (callee : Expr) (name : String) (args : List Expr)
    (line : Nat) : Eval Value := do
  match Builtin.ofName? name with
  | some builtin => callBuiltin builtin (← evalAll ev f args)
  | none =>
      if (← get).plugins.functions.contains name then
        let values ← evalAll ev f args
        step (·.callPlugin name values)
      else if (← get).registry.contains name then
        let values ← evalAll ev f args
        step (·.callRegistered name values)
      else callValue ev f callee args line

def evalStep (ev : Evaluator) (e : Expr) (f : FrameId) : Eval Value := do
  match e with
  | .number _ value => return .number value
  | .string _ value => return .string value
  | .bool _ value => return .bool value
  | .null _ => return .null
  | .identifier pos name => evalName f name pos.line
  | .binary pos op left right =>
      let left ← ev.eval left f
      let right ← ev.eval right f
      match op.apply (← get).store left right with
      | .ok value => return value
      | .error cause => fail cause pos.line
  | .unary _ op operand => return op.apply (← ev.eval operand f)
  | .call pos (.identifier namePos name) args =>
      callName ev f (.identifier namePos name) name args pos.line
  | .call pos callee args => callValue ev f callee args pos.line
  | .member pos object name => evalMember (← ev.eval object f) name pos.line
  | .assign pos op target value => evalAssign ev f op target value pos.line

/-- Adds members to a class whose methods are declared in `frame`. Other statements are passed
over. -/
def declareMembers (ev : Evaluator) (frame : FrameId) :
    ClassObject → List Stmt → Eval ClassObject
  | c, [] => return c
  | c, .function _ name params body modifiers :: members => do
      let id ← newFunction { name, params, body := some body, modifiers, scope := some frame }
      declareMembers ev frame { c with methods := c.methods.insert name id } members
  | c, .property _ name initializer _ :: members => do
      let value ← evalOption ev frame initializer
      declareMembers ev frame { c with properties := c.properties.insert name value } members
  | c, _ :: members => declareMembers ev frame c members

/-- Whether the condition of a loop holds; an absent one always does. -/
def holds (ev : Evaluator) (f : FrameId) : Option Expr → Eval Bool
  | some e => do return (← ev.eval e f).truthy
  | none => return true

/-- One round of a loop: the body and the step if the condition holds, else the end of the loop with
the value that the body had last. -/
def loopRound (ev : Evaluator) (f : FrameId) (condition step : Option Expr) (body : Stmt)
    (last : Value) : Eval (Value ⊕ Flow) := do
  if ← holds ev f condition then
    match ← ev.exec body f with
    | .normal value =>
        discard (evalOption ev f step)
        return .inl value
    | .returned value => return .inr (.returned value)
  else return .inr (.normal last)

/-- Runs a statement. Loops go round at most `n` times. -/
def execStep (ev : Evaluator) (n : Nat) (s : Stmt) (f : FrameId) : Eval Flow := do
  match s with
  | .expression _ e => return .normal (← ev.eval e f)
  | .varDecl _ name initializer | .property _ name initializer _ =>
      let value ← evalOption ev f initializer
      define f name value
      return .normal value
  | .returning _ value => return .returned (← evalOption ev f value)
  | .branch _ condition consequent alternative =>
      if (← ev.eval condition f).truthy then ev.exec consequent f
      else
        match alternative with
        | some s => ev.exec s f
        | none => return .normal .null
  | .whileLoop _ condition body => repeated (loopRound ev f (some condition) none body) n .null
  | .forLoop _ initializer condition step body =>
      let frame ← newFrame f
      match initializer with
      | some s => discard (ev.exec s frame)
      | none => pure ()
      repeated (loopRound ev frame condition step body) n .null
  | .block _ body =>
      let frame ← newFrame f
      execAll ev frame .null body
  | .function _ name params body modifiers =>
      let id ← newFunction { name, params, body := some body, modifiers, scope := some f }
      define f name (.functionRef id)
      return .normal (.functionRef id)
  | .classDecl _ name members isStatic =>
      let frame ← newFrame f
      let c ← declareMembers ev frame ⟨name, ∅, ∅, isStatic⟩ members
      let id ← newClass c
      define f name (.classRef id)
      return .normal (.classRef id)

/-- Runs expressions and statements with so much fuel. It bounds how deep they nest, calls included,
and how often a loop goes round. -/
def ofFuel : Nat → Evaluator
  | 0 => ⟨fun _ _ => throw .exhausted, fun _ _ => throw .exhausted⟩
  | n + 1 => ⟨fun e f => evalStep (ofFuel n) e f, fun s f => execStep (ofFuel n) n s f⟩

end Evaluator

end Scriptlet
