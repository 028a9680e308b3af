import Scriptlet.Number.Rounding

/-! Values of scripts. Numbers, texts and truth values are themselves; functions, classes and
instances are references into the store, and two references are the same value if they lead to the
same object. -/

namespace Scriptlet

/-- The index of a frame of variables. -/
abbrev FrameId := Nat

abbrev FunctionId := Nat

abbrev ClassId := Nat

abbrev InstanceId := Nat

/-- A value. An object of the host is known to scripts only by its handle. -/
inductive Value where
  | null
  | number (value : Float)
  | string (value : String)
  | bool (value : Bool)
  | functionRef (id : FunctionId)
  | classRef (id : ClassId)
  | instanceRef (id : InstanceId)
  | host (handle : Int)
deriving DecidableEq, Inhabited

namespace Value

/-- Null, `false`, the zeros and the empty text do not hold; all else does. -/
def truthy : Value → Bool
  | null => false
  | bool b => b
  | number x => x != 0.0
  | string s => !s.isEmpty
  | _ => true

/-- The number that arithmetic and comparison see: anything that is no number counts as zero. -/
def toNumber : Value → Float
  | number x => x
  | _ => 0.0

def typeName : Value → String
  | null => "null"
  | number _ => "number"
  | string _ => "string"
  | bool _ => "boolean"
  | functionRef _ => "function"
  | classRef _ => "class"
  | instanceRef _ => "instance"
  | host _ => "object"

/-- Equality as scripts see it. It is not reflexive, because one number differs from itself. -/
def same : Value → Value → Bool
  | null, null => true
  | number x, number y => x == y
  | string s, string t => s == t
  | bool a, bool b => a == b
  | functionRef i, functionRef j => i == j
  | classRef i, classRef j => i == j
  | instanceRef i, instanceRef j => i == j
  | host i, host j => i == j
  | _, _ => false

end Value

end Scriptlet
