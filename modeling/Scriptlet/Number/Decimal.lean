/-! Reading a number from its decimal text: an optional sign, digits with an optional point, and an
optional exponent; or the name of an infinity or of the value that is no number. -/

namespace Scriptlet.Number

def infinity : Float := 1.0 / 0.0

def nan : Float := 0.0 / 0.0

/-- The number that a digit continues: `n` with one more decimal place. -/
def appendDigit (n : Nat) (digit : Char) : Nat :=
  10 * n + (digit.toNat - '0'.toNat)

/-- The value of a run of decimal digits, cut in halves `depth` times. Halves of equal size keep the
products balanced, so that long runs are read in little more than the time of one product. -/
def digitsValueBy : Nat → List Char → Nat
  | 0, digits => digits.foldl appendDigit 0
  | depth + 1, digits =>
      let half := digits.length / 2
      let low := digits.drop half
      digitsValueBy depth (digits.take half) * Nat.pow 10 low.length + digitsValueBy depth low

def digitsValue (digits : List Char) : Nat :=
  digitsValueBy (digits.length.log2 - 5) digits

/-- Digits continue a number as their own value continues it. -/
theorem foldl_appendDigit (n : Nat) (digits : List Char) :
    digits.foldl appendDigit n =
      n * Nat.pow 10 digits.length + digits.foldl appendDigit 0 := by
  induction digits generalizing n with
  | nil => simp
  | cons d ds ih =>
      rw [List.foldl_cons, List.foldl_cons, ih (appendDigit n d), ih (appendDigit 0 d)]
      simp only [appendDigit, List.length_cons, Nat.pow_eq, Nat.pow_succ]
      grind

/-- Cutting does not change the value. -/
theorem digitsValueBy_eq (depth : Nat) (digits : List Char) :
    digitsValueBy depth digits = digits.foldl appendDigit 0 := by
  induction depth generalizing digits with
  | zero => rfl
  | succ depth ih =>
      have whole : (digits.take (digits.length / 2) ++ digits.drop (digits.length / 2)).foldl
          appendDigit 0 = digits.foldl appendDigit 0 := by
        rw [List.take_append_drop]
      rw [List.foldl_append, foldl_appendDigit] at whole
      rw [← whole]
      simp only [digitsValueBy, ih]

/-- The value of a run of digits is what reading it digit by digit gives. -/
theorem digitsValue_eq (digits : List Char) :
    digitsValue digits = digits.foldl appendDigit 0 :=
  digitsValueBy_eq _ _

/-- Splits off an optional sign; `true` stands for a minus. -/
def splitSign : List Char → Bool × List Char
  | '-' :: cs => (true, cs)
  | '+' :: cs => (false, cs)
  | cs => (false, cs)

def signed? (value : List Char → Nat) (cs : List Char) : Option Int :=
  let (negative, digits) := splitSign cs
  if !digits.isEmpty && digits.all Char.isDigit then
    let size : Int := value digits
    some (if negative then -size else size)
  else none

def integer? (cs : List Char) : Option Int :=
  signed? digitsValue cs

/-- From this size on, an exponent takes no further digit. -/
def exponentLimit : Nat := 0x10000

/-- The size of an exponent. The digits after it has reached the limit do not count. -/
def exponentValue (digits : List Char) : Nat :=
  digits.foldl (fun n d => if n < exponentLimit then appendDigit n d else n) 0

/-- The exponent that ends a number; an absent one is zero. -/
def exponent? : List Char → Option Int
  | [] => some 0
  | c :: cs => if c = 'e' ∨ c = 'E' then signed? exponentValue cs else none

/-- The number nearest to `m * 10 ^ e`. -/
def scaled (m : Nat) (e : Int) : Float :=
  Float.ofScientific m (e < 0) e.natAbs

/-- How many significant digits of a number are read one by one. A number half-way between two
neighbours has fewer. -/
def significantDigits : Nat := 800

/-- The number nearest to the value of the digits, times `10 ^ e`. The digits after the significant
ones can only tell a number from the half-way one before it, so a single digit stands for them: zero
if they all are zero, and otherwise one. -/
def ofDigits (digits : List Char) (e : Int) : Float :=
  let digits := digits.dropWhile (· = '0')
  let rest := digits.drop significantDigits
  if rest.isEmpty then scaled (digitsValue digits) e
  else
    let last := if rest.all (· = '0') then 0 else 1
    scaled (10 * digitsValue (digits.take significantDigits) + last) (e + rest.length - 1)

/-- The named values, in any case. -/
def named? (cs : List Char) : Option Float :=
  let name := String.ofList (cs.map Char.toLower)
  if name = "inf" ∨ name = "infinity" then some infinity
  else if name = "nan" then some nan
  else none

/-- A number without a sign. At least one digit stands before or after the point. -/
def unsigned? (cs : List Char) : Option Float :=
  let whole := cs.takeWhile Char.isDigit
  let afterWhole := cs.dropWhile Char.isDigit
  let afterPoint := match afterWhole with
    | '.' :: rest => rest
    | _ => []
  let fraction := afterPoint.takeWhile Char.isDigit
  let tail := match afterWhole with
    | '.' :: rest => rest.dropWhile Char.isDigit
    | rest => rest
  if whole.isEmpty && fraction.isEmpty then named? cs
  else (exponent? tail).map fun e => ofDigits (whole ++ fraction) (e - fraction.length)

/-- The number that a decimal text denotes, rounded to the nearest one, ties to even. -/
def ofDecimal? (s : String) : Option Float :=
  let (negative, rest) := splitSign s.toList
  (unsigned? rest).map fun x => if negative then -x else x

end Scriptlet.Number
