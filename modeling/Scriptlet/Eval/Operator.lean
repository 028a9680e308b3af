import Scriptlet.Eval.Error
import Scriptlet.Value.Store

/-! What operators do to values. -/

namespace Scriptlet

/-- The sum of two numbers, or the joined texts if one operand is a text. -/
def Value.add (store : Store) : Value → Value → Except RuntimeCause Value
  | .number x, .number y => .ok (.number (x + y))
  | left@(.string _), right | left, right@(.string _) =>
      .ok (.string (store.display left ++ store.display right))
  | left, right => .error (.operandMismatch left.typeName right.typeName)

/-- The result of an operator. Both operands are there already, so the logical ones do not choose
between them. -/
def BinaryOp.apply (store : Store) (op : BinaryOp) (left right : Value) :
    Except RuntimeCause Value :=
  let x := left.toNumber
  let y := right.toNumber
  match op with
  | .add => left.add store right
  | .sub => .ok (.number (x - y))
  | .mul => .ok (.number (x * y))
  | .div => if y == 0.0 then .error .divisionByZero else .ok (.number (x / y))
  | .mod => .ok (.number (Number.remainder x y))
  | .less => .ok (.bool (x < y))
  | .lessEqual => .ok (.bool (x ≤ y))
  | .greater => .ok (.bool (x > y))
  | .greaterEqual => .ok (.bool (x ≥ y))
  | .equal => .ok (.bool (left.same right))
  | .notEqual => .ok (.bool (!left.same right))
  | .and => .ok (.bool (left.truthy && right.truthy))
  | .or => .ok (.bool (left.truthy || right.truthy))

def UnaryOp.apply : UnaryOp → Value → Value
  | .negate, value => .number (-value.toNumber)
  | .not, value => .bool (!value.truthy)

/-- What an assignment stores, given the current value where it needs one. Sums and differences are
those of numbers. -/
def AssignOp.apply (op : AssignOp) (current : Value) (value : Value) : Value :=
  match op with
  | .set => value
  | .add => .number (current.toNumber + value.toNumber)
  | .sub => .number (current.toNumber - value.toNumber)

end Scriptlet
