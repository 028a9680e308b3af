import Scriptlet.Number.Rounding
import Scriptlet.Text.Blank

/-! The shortest decimal of a number: of the decimals that round to it, those with the fewest
digits, and of these the nearest one. -/

namespace Scriptlet.Number

/-- The decimal `digits * 10 ^ exponent`; the last digit is not a zero. -/
structure Decimal where
  digits : List Char
  exponent : Int

/-- The reals that round to one number lie between `low` and `high`, and the number is `value`,
each over the denominator `unit`. -/
structure Neighbourhood where
  low : Nat
  value : Nat
  high : Nat
  unit : Nat
  /-- Whether the two ends round to the number as well. -/
  closed : Bool

/-- The neighbourhood of `m * 2 ^ e`, counted in quarters of a unit of the mantissa. Below a power
of two the numbers lie twice as close. -/
def Neighbourhood.of (m : Nat) (e : Int) : Neighbourhood :=
  let scale := Nat.pow 2 (e - 2).toNat
  let below := if m = Nat.pow 2 52 ∧ -1074 < e then 1 else 2
  { low := (4 * m - below) * scale
    value := 4 * m * scale
    high := (4 * m + 2) * scale
    unit := Nat.pow 2 (2 - e).toNat
    closed := m % 2 = 0 }

/-- The same neighbourhood, counted in units of `10 ^ k`. -/
def Neighbourhood.inUnits (r : Neighbourhood) (k : Int) : Neighbourhood :=
  let scale := Nat.pow 10 (-k).toNat
  { r with
    low := r.low * scale
    value := r.value * scale
    high := r.high * scale
    unit := r.unit * Nat.pow 10 k.toNat }

/-- Whether `n` units round to the number. -/
def Neighbourhood.holds (r : Neighbourhood) (n : Nat) : Bool :=
  if r.closed then r.low ≤ n * r.unit && n * r.unit ≤ r.high
  else r.low < n * r.unit && n * r.unit < r.high

/-- The count of units that rounds to the number and is nearest to it; of two equally near ones the
larger. -/
def Neighbourhood.nearest? (r : Neighbourhood) : Option Nat :=
  let n := r.value / r.unit
  if r.holds n && (!r.holds (n + 1) || 2 * r.value < (2 * n + 1) * r.unit) then some n
  else if r.holds (n + 1) then some (n + 1)
  else none

def digitCount (n : Nat) : Nat :=
  n.repr.length

/-- The power `p` of ten for which the number lies from `10 ^ (p - 1)` up to `10 ^ p`. -/
def Neighbourhood.magnitude (r : Neighbourhood) : Int :=
  if r.unit ≤ r.value then digitCount (r.value / r.unit)
  else 1 - digitCount ((r.unit - 1) / r.value)

/-- A count of units as a decimal, without zeros at its end. -/
def Decimal.ofUnits (n : Nat) (k : Int) : Decimal :=
  let all := n.repr.toList
  let digits := Text.dropEndWhile (· = '0') all
  { digits, exponent := k + (all.length - digits.length : Nat) }

/-- Tries the grids from `10 ^ k` down, at most `n` of them, for a decimal in the neighbourhood. -/
def Neighbourhood.search (r : Neighbourhood) : Nat → Int → Decimal
  | 0, k => .ofUnits ((r.inUnits k).value / (r.inUnits k).unit) k
  | n + 1, k =>
      match (r.inUnits k).nearest? with
      | some units => .ofUnits units k
      | none => r.search n (k - 1)

/-- The shortest decimal of `m * 2 ^ e`. Seventeen digits tell any two numbers apart. -/
def shortest (m : Nat) (e : Int) : Decimal :=
  let r := Neighbourhood.of m e
  r.search 17 (r.magnitude - 1)

end Scriptlet.Number
