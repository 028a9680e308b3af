/-! What can go wrong while a script runs. -/

namespace Scriptlet

/-- Why a script stops. -/
inductive RuntimeCause where
  | undefinedVariable (name : String)
  | notCallable
  | arity (expected got : Nat)
  | invalidTarget
  /-- The class is known only if the member was looked for in an instance. -/
  | memberNotFound (name : String) (className : Option String)
  | propertyOnNonObject (name : String)
  | divisionByZero
  /-- The types of two operands that cannot be added. -/
  | operandMismatch (left right : String)
  | staticInstantiation (className : String)
deriving DecidableEq, Repr

def RuntimeCause.message : RuntimeCause → String
  | undefinedVariable name => "Undefined variable '" ++ name ++ "'."
  | notCallable => "Can only call functions."
  | arity expected got =>
      "Expected " ++ toString expected ++ " arguments but got " ++ toString got ++ "."
  | invalidTarget => "Invalid assignment target."
  | memberNotFound name (some className) =>
      "Property '" ++ name ++ "' not found in class '" ++ className ++ "'."
  | memberNotFound name none => "Property '" ++ name ++ "' not found."
  | propertyOnNonObject name => "Cannot assign to property '" ++ name ++ "' of non-object."
  | divisionByZero => "Division by zero."
  | operandMismatch left right =>
      "Operands of '+' must be two numbers or include a string (got " ++ left ++ " and " ++ right ++
        ")."
  | staticInstantiation className =>
      "Cannot create instance of static class '" ++ className ++ "'."

/-- A cause and the line of the node that raised it. -/
structure RuntimeError where
  cause : RuntimeCause
  line : Nat
deriving DecidableEq, Repr

def RuntimeError.text (e : RuntimeError) : String :=
  e.cause.message ++ " [line " ++ toString e.line ++ "]"

end Scriptlet
