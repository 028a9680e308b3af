import Scriptlet.Number.Shortest

/-! The texts of a number: as scripts see it, as syntax trees show it, and as inspection shows it.
-/

namespace Scriptlet.Number

open Float.Model

/-- The decimal without an exponent, filled up with zeros. -/
def Decimal.positional (d : Decimal) : String :=
  let point := d.digits.length + d.exponent
  String.ofList <|
    if 0 ≤ d.exponent then d.digits ++ List.replicate d.exponent.toNat '0'
    else if 0 < point then d.digits.take point.toNat ++ '.' :: d.digits.drop point.toNat
    else '0' :: '.' :: (List.replicate (-point).toNat '0' ++ d.digits)

/-- The decimal with one digit before the point, and an exponent. -/
def Decimal.scientific (d : Decimal) : String :=
  let mantissa := match d.digits with
    | first :: second :: rest => first :: '.' :: second :: rest
    | digits => digits
  String.ofList mantissa ++ "e" ++ toString (d.exponent + d.digits.length - 1)

def signText : UnpackedFloat.Sign → String
  | .negative => "-"
  | .positive => ""

/-- The shortest digits that read back, never with an exponent. -/
def plainText (x : Float) : String :=
  match x.toModel.unpack with
  | .notANumber => "NaN"
  | .infinity sign => signText sign ++ "inf"
  | .zero sign => signText sign ++ "0"
  | .finite sign m e _ => signText sign ++ (shortest m e).positional

/-- The text of a number in a script. Whole numbers below `10 ^ 15` are written as integers, so
that both zeros are `0`. -/
def displayText (x : Float) : String :=
  match x.toModel.unpack with
  | .infinity sign => signText sign ++ "Infinity"
  | _ =>
      match whole? x with
      | some n => if n.natAbs < Nat.pow 10 15 then toString n else plainText x
      | none => plainText x

/-- The text of a number in a syntax tree. A whole number is written out in full and followed by
`.0`. -/
def treeText (x : Float) : String :=
  match whole? x with
  | some n => (if n = 0 then plainText x else toString n) ++ ".0"
  | none => plainText x

/-- The text of a number under inspection. It always shows a fraction or an exponent, the latter
from `10 ^ 16` upwards and below `10 ^ -4`. -/
def inspectText (x : Float) : String :=
  match x.toModel.unpack with
  | .finite sign m e _ =>
      if x.abs < 1e-4 || 1e16 ≤ x.abs then signText sign ++ (shortest m e).scientific
      else if (whole? x).isSome then plainText x ++ ".0"
      else plainText x
  | .zero _ => plainText x ++ ".0"
  | _ => plainText x

end Scriptlet.Number
