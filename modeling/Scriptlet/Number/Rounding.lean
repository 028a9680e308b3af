import Scriptlet.Number.Decimal

/-! Passing between numbers and integers: truncation, remainder, and the nearest number to an
integer. All of it is exact integer arithmetic on the mantissa and exponent of a number. -/

namespace Scriptlet.Number

open Float.Model

/-- The number nearest to `m * 2 ^ e` with the given sign, ties to even; a zero keeps the sign. -/
def nearest (sign : UnpackedFloat.Sign) (m : Nat) (e : Int) : Float :=
  .ofModel (.pack (.round .binary64 sign m e))

def ofInt (n : Int) : Float :=
  .ofModel (.ofInt n)

/-- The integer that a finite number without a fraction is. -/
def whole? (x : Float) : Option Int :=
  match x.toModel.unpack with
  | .zero _ => some 0
  | .finite sign m e _ =>
      if 0 ≤ e then some (sign.apply (m * Nat.pow 2 e.toNat : Nat))
      else if m % Nat.pow 2 (-e).toNat = 0 then
        some (sign.apply (m / Nat.pow 2 (-e).toNat : Nat))
      else none
  | _ => none

/-- The number without its fraction. It keeps the sign, so a small negative number gives the
negative zero. -/
def truncate (x : Float) : Float :=
  match x.toModel.unpack with
  | .finite sign m e _ => if 0 ≤ e then x else nearest sign (m / Nat.pow 2 (-e).toNat) 0
  | _ => x

/-- The truncated number as an integer of 64 bits. Beyond their range it is the nearest bound. -/
def toInt64 (x : Float) : Int64 :=
  x.toModel.toInt64

/-- The remainder of the truncated quotient. It has the sign of `x`; there is none of an infinite
`x` or of a zero `y`. -/
def remainder (x y : Float) : Float :=
  match x.toModel.unpack, y.toModel.unpack with
  | .finite sign m e _, .finite _ n d _ =>
      let low := min e d
      nearest sign (m * Nat.pow 2 (e - low).toNat % (n * Nat.pow 2 (d - low).toNat)) low
  | .finite .., .infinity _ => x
  | .zero _, .finite .. => x
  | .zero _, .infinity _ => x
  | _, _ => nan

end Scriptlet.Number
