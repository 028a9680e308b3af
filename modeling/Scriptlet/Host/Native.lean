import Scriptlet.Console
import Scriptlet.Text.Blank
import Scriptlet.Value.Basic

/-! Functions of the host, and the conversion of values to and from the types of the host.

A host function sees its arguments, their texts and the console, and nothing else. Among the
arguments there can be functions, classes and instances. It is assumed that a host function neither
looks into these nor changes them, and that it builds none: what it does depends on the values as
they are, and all that it changes is the console. -/

namespace Scriptlet

inductive NativeError where
  | missingArguments (name : String) (expected : Nat)
  | conversion (value target : String)
  | custom (message : String)
deriving DecidableEq, Repr

def NativeError.message : NativeError → String
  | missingArguments name expected =>
      "Function '" ++ name ++ "' requires " ++ toString expected ++ " argument(s)"
  | conversion value target => "Cannot convert " ++ value ++ " to type " ++ target
  | custom message => message

/-- An argument: a value, and its text as it would be printed. -/
structure Argument where
  value : Value
  text : String

/-- A function of the host. -/
abbrev NativeFunction := List Argument → Console → Except NativeError Value × Console

class FromArgument (α : Type) where
  typeName : String
  ofArgument? : Argument → Option α

class ToValue (α : Type) where
  toValue : α → Value

export FromArgument (ofArgument?)
export ToValue (toValue)

/-- Numbers, texts that spell one, and null for zero. -/
instance : FromArgument Float where
  typeName := "double"
  ofArgument? arg :=
    match arg.value with
    | .null => some 0.0
    | .number x => some x
    | .string s => Number.ofDecimal? (String.ofList (Text.trim s.toList))
    | _ => none

/-- The integers of 64 bits among all integers. -/
def int64? (n : Int) : Option Int64 :=
  if Int64.minValue.toInt ≤ n ∧ n ≤ Int64.maxValue.toInt then some (Int64.ofInt n) else none

/-- The integers of 32 bits among all integers. -/
def int32? (n : Int) : Option Int32 :=
  if Int32.minValue.toInt ≤ n ∧ n ≤ Int32.maxValue.toInt then some (Int32.ofInt n) else none

/-- Finite numbers, which are truncated, texts that spell an integer, and null for zero. -/
instance : FromArgument Int64 where
  typeName := "int"
  ofArgument? arg :=
    match arg.value with
    | .null => some 0
    | .number x => if x.isFinite then some (Number.toInt64 x) else none
    | .string s => (Number.integer? (Text.trim s.toList)).bind int64?
    | _ => none

/-- As for 64 bits, if the result fits into 32. -/
instance : FromArgument Int32 where
  typeName := "int"
  ofArgument? arg := (ofArgument? arg : Option Int64).bind fun n => int32? n.toInt

/-- Every value, as its text. -/
instance : FromArgument String where
  typeName := "string"
  ofArgument? arg := some arg.text

/-- Truth values, `true` and `false` spelled out in any case, numbers that are not zero, and null
for `false`. -/
instance : FromArgument Bool where
  typeName := "bool"
  ofArgument? arg :=
    match arg.value with
    | .null => some false
    | .bool b => some b
    | .number x => some (x != 0.0)
    | .string s =>
        let word := String.ofList (s.toList.map Char.toLower)
        if word = "true" then some true else if word = "false" then some false else none
    | _ => none

/-- Every value, unchanged. -/
instance : FromArgument Value where
  typeName := "any"
  ofArgument? arg := some arg.value

instance : ToValue Value := ⟨id⟩

instance : ToValue Float := ⟨.number⟩

instance : ToValue Int64 := ⟨fun n => .number (Number.ofInt n.toInt)⟩

instance : ToValue Int32 := ⟨fun n => .number (Number.ofInt n.toInt)⟩

instance : ToValue Nat := ⟨fun n => .number (Number.ofInt n)⟩

instance : ToValue Bool := ⟨.bool⟩

instance : ToValue String := ⟨.string⟩

instance : ToValue Unit := ⟨fun _ => .null⟩

instance {α : Type} [ToValue α] : ToValue (Option α) := ⟨fun a => (a.map toValue).getD .null⟩

/-- The converted argument, or the failure that names the value and the type. -/
def convert (α : Type) [FromArgument α] (arg : Argument) : Except NativeError α :=
  match ofArgument? arg with
  | some a => .ok a
  | none => .error (.conversion arg.text (FromArgument.typeName α))

namespace NativeFunction

/-- A function that leaves the console alone. -/
def quiet (f : List Argument → Except NativeError Value) : NativeFunction :=
  fun args console => (f args, console)

def nullary {β : Type} [ToValue β] (result : β) : NativeFunction :=
  quiet fun _ => .ok (toValue result)

/-- A function of one converted parameter. Further arguments are ignored, here and below. -/
def unary {α β : Type} [FromArgument α] [ToValue β] (name : String) (f : α → β) :
    NativeFunction :=
  quiet fun
    | a :: _ => do return toValue (f (← convert α a))
    | _ => throw (.missingArguments name 1)

/-- A function of two parameters, converted from left to right. -/
def binary {α β γ : Type} [FromArgument α] [FromArgument β] [ToValue γ] (name : String)
    (f : α → β → γ) : NativeFunction :=
  quiet fun
    | a :: b :: _ => do
        let x ← convert α a
        let y ← convert β b
        return toValue (f x y)
    | _ => throw (.missingArguments name 2)

/-- A function of three parameters, converted from left to right. -/
def ternary {α β γ δ : Type} [FromArgument α] [FromArgument β] [FromArgument γ] [ToValue δ]
    (name : String) (f : α → β → γ → δ) : NativeFunction :=
  quiet fun
    | a :: b :: c :: _ => do
        let x ← convert α a
        let y ← convert β b
        let z ← convert γ c
        return toValue (f x y z)
    | _ => throw (.missingArguments name 3)

end NativeFunction

end Scriptlet
