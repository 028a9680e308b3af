import Scriptlet.Value.Store

/-! Blueprints: values that are described now and built later. Each building makes new objects, and
a global variable is read at the time of building. -/

namespace Scriptlet

inductive Blueprint where
  | known (value : Value)
  | global (name : String)
  | stub (signature : Signature)
  | newClass (name : String) (methods : List Signature) (properties : List (String × Blueprint))
      (isStatic : Bool)
  | newInstance (design : Blueprint)
deriving Inhabited

/-- Keeps a stub for every signature, and gives the stubs by name; of two of one name the later one
counts. -/
def Store.addStubs (s : Store) (signatures : List Signature) : Table FunctionId × Store :=
  signatures.foldl
    (fun (stubs, s) signature =>
      let (id, s) := s.addFunction (.stub signature)
      (stubs.insert signature.name id, s))
    (∅, s)

namespace Blueprint

mutual

/-- Builds a value. A variable that is not bound gives null, and so does an instance of anything but
a class that has instances. -/
def build : Blueprint → Store → Value × Store
  | .known value, s => (value, s)
  | .global name, s => ((s.scopes.local? Scopes.globals name).getD .null, s)
  | .stub signature, s =>
      let (id, s) := s.addFunction (.stub signature)
      (.functionRef id, s)
  | .newClass name methods properties isStatic, s =>
      let (methods, s) := s.addStubs methods
      let (properties, s) := buildProperties properties ∅ s
      let (id, s) := s.addClass ⟨name, methods, properties, isStatic⟩
      (.classRef id, s)
  | .newInstance design, s =>
    match design.build s with
    | (.classRef id, s) =>
      match s.instantiate? id with
      | some (id, s) => (.instanceRef id, s)
      | none => (.null, s)
    | (_, s) => (.null, s)

/-- Builds properties in their order and adds them to those built before. -/
def buildProperties : List (String × Blueprint) → Table Value → Store → Table Value × Store
  | [], built, s => (built, s)
  | (name, design) :: designs, built, s =>
      let (value, s) := design.build s
      buildProperties designs (built.insert name value) s

end

end Blueprint

end Scriptlet
