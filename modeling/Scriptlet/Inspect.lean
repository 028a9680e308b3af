import Scriptlet.Host.Machine
import Scriptlet.Text.Extending
import Scriptlet.Text.Printable

/-! Inspection: the inner structure of values and of the parts of an interpreter, on one line. -/

namespace Scriptlet.Inspect

/-- A character inside quotes. One that would not stand out by itself, because it is a mark on the
character before it or cannot be printed, is written as its code point in braces. -/
def escaped (c : Char) : List Char :=
  match c with
  | '"' => ['\\', '"']
  | '\\' => ['\\', '\\']
  | '\n' => ['\\', 'n']
  | '\r' => ['\\', 'r']
  | '\t' => ['\\', 't']
  | '\x00' => ['\\', '0']
  | c =>
      if Text.isExtending c || !Text.isPrintable c then
        ['\\', 'u', '\x7b'] ++ Nat.toDigits 16 c.toNat ++ ['\x7d']
      else [c]

def quoted (s : String) : String :=
  "\"" ++ String.ofList (s.toList.flatMap escaped) ++ "\""

def list (items : List String) : String :=
  "[" ++ ", ".intercalate items ++ "]"

def record (name : String) (fields : List (String × String)) : String :=
  name ++ " \x7b " ++ ", ".intercalate (fields.map fun (field, text) => field ++ ": " ++ text) ++
    " \x7d"

def option : Option String → String
  | some text => "Some(" ++ text ++ ")"
  | none => "None"

def keys {α : Type} (t : Table α) : String :=
  list (t.toList.map fun (name, _) => quoted name)

def function (f : FunctionObject) : String :=
  record "Function"
    [("name", quoted f.name), ("params", list (f.params.map quoted)),
     ("native", toString f.body.isNone), ("is_static", toString f.modifiers.isStatic),
     ("is_public", toString f.modifiers.isPublic)]

def classObject (c : ClassObject) : String :=
  record "Class"
    [("name", quoted c.name), ("methods", keys c.methods), ("properties", keys c.properties),
     ("is_static", toString c.isStatic)]

def instanceObject (s : Store) (i : InstanceObject) : String :=
  record "Instance"
    [("class", quoted (s.classObject i.classId).name), ("fields", keys i.fields)]

def value (s : Store) : Value → String
  | .null => "Null"
  | .number x => "Number(" ++ Number.inspectText x ++ ")"
  | .string t => "String(" ++ quoted t ++ ")"
  | .bool b => "Bool(" ++ toString b ++ ")"
  | .functionRef id => "Function(" ++ function (s.function id) ++ ")"
  | .classRef id => "Class(" ++ classObject (s.classObject id) ++ ")"
  | .instanceRef id => "Instance(" ++ instanceObject s (s.instanceObject id) ++ ")"
  | .host _ => "Host(HostObject(..))"

def registry (r : Registry) : String :=
  let entry (e : RegistryEntry) :=
    record "RegisteredFunction"
      [("name", quoted e.name), ("description", quoted e.description),
       ("arity", option (e.arity.map toString))]
  record "FunctionRegistry" [("functions", list (r.entries.map entry))]

def parameter (s : Store) (p : Parameter Value) : String :=
  record "ParameterInfo"
    [("name", quoted p.name), ("type_name", quoted p.typeName),
     ("is_optional", toString p.default.isSome),
     ("default_value", option (p.default.map (value s)))]

def plugins (s : Store) (t : PluginTable) : String :=
  let function (f : PluginFunction) :=
    record "PluginFunction"
      [("name", quoted f.name), ("parameters", list (f.parameters.map (parameter s))),
       ("return_type", quoted f.returnType)]
  record "PluginManager"
    [("plugins", list (t.names.map quoted)),
     ("functions", list (t.functions.toList.map fun (_, f) => function f.function))]

def machine (m : Machine) : String :=
  record "Interpreter"
    [("registry", registry m.registry), ("plugins", plugins m.store m.plugins)]

end Scriptlet.Inspect
