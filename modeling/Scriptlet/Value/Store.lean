import Scriptlet.Number.Text
import Scriptlet.Syntax.Basic
import Scriptlet.Value.Scopes

/-! The store: the frames of variables, and the functions, classes and instances that values refer
to. -/

namespace Scriptlet

structure Signature where
  name : String
  params : List String
deriving DecidableEq, Repr, Inhabited

/-- A function. One without a body is a stub, which only makes its name known; one without a scope
runs in the global frame. -/
structure FunctionObject extends Signature where
  body : Option (List Stmt)
  modifiers : Modifiers
  scope : Option FrameId
deriving Inhabited

namespace FunctionObject

def stub (signature : Signature) : FunctionObject :=
  { signature with
    body := none
    modifiers := { isStatic := true, isPublic := true }
    scope := none }

/-- The function with its scope among the given frames. One that is not there counts as none. -/
def placed (f : FunctionObject) (scopes : Scopes) : FunctionObject :=
  { f with scope := f.scope.filter (· < scopes.frames.size) }

end FunctionObject

/-- A class: its methods, and the properties that its instances start with. -/
structure ClassObject where
  name : String
  methods : Table FunctionId
  properties : Table Value
  isStatic : Bool
deriving Inhabited

structure InstanceObject where
  classId : ClassId
  fields : Table Value
deriving Inhabited

/-- Everything that values refer to. -/
structure Store where
  scopes : Scopes
  functions : Array FunctionObject
  classes : Array ClassObject
  instances : Array InstanceObject

namespace Store

def empty : Store := ⟨.empty, #[], #[], #[]⟩

def addFunction (s : Store) (f : FunctionObject) : FunctionId × Store :=
  (s.functions.size, { s with functions := s.functions.push f })

def addClass (s : Store) (c : ClassObject) : ClassId × Store :=
  (s.classes.size, { s with classes := s.classes.push c })

def function (s : Store) (id : FunctionId) : FunctionObject :=
  s.functions.getD id default

def classObject (s : Store) (id : ClassId) : ClassObject :=
  s.classes.getD id default

def instanceObject (s : Store) (id : InstanceId) : InstanceObject :=
  s.instances.getD id default

/-- A new instance, whose fields are the properties of its class. -/
def addInstance (s : Store) (id : ClassId) : InstanceId × Store :=
  let fields := (s.classObject id).properties
  (s.instances.size, { s with instances := s.instances.push ⟨id, fields⟩ })

/-- A new instance of a class that is not static. -/
def instantiate? (s : Store) (id : ClassId) : Option (InstanceId × Store) :=
  if (s.classObject id).isStatic then none else some (s.addInstance id)

def field? (s : Store) (id : InstanceId) (name : String) : Option Value :=
  (s.instanceObject id).fields[name]?

/-- Sets a field of an instance, whether it has one of that name or not. -/
def setField (s : Store) (id : InstanceId) (name : String) (value : Value) : Store :=
  { s with instances :=
      s.instances.modify id fun i => { i with fields := i.fields.insert name value } }

/-- A member of a class: a method, or else what instances start with. -/
def classMember? (s : Store) (id : ClassId) (name : String) : Option Value :=
  let c := s.classObject id
  (c.methods[name]?.map Value.functionRef).or c.properties[name]?

/-- A member of an instance: a field, or else a method of its class. -/
def instanceMember? (s : Store) (id : InstanceId) (name : String) : Option Value :=
  (s.field? id name).or
    ((s.classObject (s.instanceObject id).classId).methods[name]?.map Value.functionRef)

def display (s : Store) : Value → String
  | .null => "null"
  | .number x => Number.displayText x
  | .string t => t
  | .bool b => toString b
  | .functionRef id => "<function " ++ (s.function id).name ++ ">"
  | .classRef id => "<class " ++ (s.classObject id).name ++ ">"
  | .instanceRef id => "<" ++ (s.classObject (s.instanceObject id).classId).name ++ " instance>"
  | .host _ => "<host object>"

end Store

end Scriptlet
