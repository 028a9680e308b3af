import Mathlib
import Scriptlet.Number.Decimal

/-! # Numbers of literals

A literal starts with a digit and has no sign and no exponent. Its number is zero, a positive finite
number or infinity. -/

namespace Scriptlet.Number

open Float.Model Float.Model.UnpackedFloat

/-- Zero, finite or infinite, and without a minus. -/
inductive Unsigned : UnpackedFloat → Prop where
  | zero : Unsigned (.zero .positive)
  | finite {m : Nat} {e : Int} {pos : 0 < m} : Unsigned (.finite .positive m e pos)
  | infinity : Unsigned (.infinity .positive)

/-! ## Packing -/

theorem unsigned_unpack_packComponents {exponent : BitVec 11} {mantissa : BitVec 52}
    (number : exponent ≠ -1#11 ∨ mantissa = 0#52) :
    Unsigned (UnpackedFloat.unpack .binary64
      (packComponents .binary64 .positive exponent mantissa)) := by
  simp only [UnpackedFloat.unpack, unpackMantissa_packComponents, unpackExponent_packComponents,
    unpackSign_packComponents, Sign.ofBitVec_toBitVec]
  split
  · rename_i full
    rw [if_pos (number.resolve_left (not_not_intro full))]
    exact .infinity
  · split
    · split
      · exact .zero
      · exact .finite
    · exact .finite

/-- Packing keeps a number unsigned, even if it is too large. -/
theorem Unsigned.pack {x : UnpackedFloat} (h : Unsigned x) :
    Unsigned (Float.Model.pack x).unpack := by
  change Unsigned (UnpackedFloat.unpack .binary64 (UnpackedFloat.pack .binary64 x))
  cases h with
  | zero => exact unsigned_unpack_packComponents (.inr rfl)
  | infinity => exact unsigned_unpack_packComponents (.inr rfl)
  | @finite m e pos =>
      simp only [UnpackedFloat.pack]
      split
      · exact unsigned_unpack_packComponents (.inr rfl)
      · rename_i small
        split
        · refine unsigned_unpack_packComponents (.inl fun full => ?_)
          have same := congrArg BitVec.toNat full
          simp only [BitVec.toNat_ofNat, Nat.not_le] at same small
          rw [Nat.mod_eq_of_lt (by omega)] at same
          have last : (-1#11).toNat = 2 ^ 11 - 1 := by decide
          omega
        · exact unsigned_unpack_packComponents (.inl (by decide))

/-! ## Arithmetic -/

theorem unsigned_roundWithAccuracy (m : Nat) (e : Int) (accuracy : Accuracy) :
    Unsigned (roundWithAccuracy .binary64 .positive m e accuracy) := by
  unfold roundWithAccuracy
  dsimp only
  split
  · exact .zero
  · exact .finite

theorem Unsigned.mul {x : UnpackedFloat} (h : Unsigned x) {m : Nat} {e : Int} {pos : 0 < m} :
    Unsigned (UnpackedFloat.mul .binary64 x (.finite .positive m e pos)) := by
  cases h with
  | zero => exact .zero
  | finite => exact unsigned_roundWithAccuracy ..
  | infinity => exact .infinity

theorem Unsigned.div {x : UnpackedFloat} (h : Unsigned x) {m : Nat} {e : Int} {pos : 0 < m} :
    Unsigned (UnpackedFloat.div .binary64 x (.finite .positive m e pos)) := by
  cases h with
  | zero => exact .zero
  | finite => exact unsigned_roundWithAccuracy ..
  | infinity => exact .infinity

theorem unsigned_ofNat (n : Nat) : Unsigned (UnpackedFloat.ofNat .binary64 n) := by
  unfold UnpackedFloat.ofNat UnpackedFloat.ofInt UnpackedFloat.normalize
  split
  · rename_i negative
    have below := Int.compare_eq_lt.mp negative
    omega
  · exact .zero
  · exact unsigned_roundWithAccuracy ..

theorem unsigned_ofScientific (m : Nat) (e : Int) :
    Unsigned (UnpackedFloat.ofScientific .binary64 m e) := by
  unfold UnpackedFloat.ofScientific
  split
  · exact .zero
  · split
    · exact .infinity
    · split
      · exact .zero
      · split
        · exact Unsigned.finite.mul
        · exact Unsigned.finite.div

/-! ## Literals -/

/-- Whether a number is finite and greater than zero. -/
def isPositive (x : Float) : Bool :=
  match x.toModel.unpack with
  | .finite .positive .. => true
  | _ => false

theorem isPositive_iff {x : Float} :
    isPositive x ↔ ∃ m e pos, x.toModel.unpack = .finite .positive m e pos := by
  unfold isPositive
  split
  · rename_i same
    exact ⟨fun _ => ⟨_, _, _, same⟩, fun _ => rfl⟩
  · rename_i other
    exact ⟨fun h => (Bool.false_ne_true h).elim, fun ⟨m, e, pos, same⟩ => (other m e pos same).elim⟩

theorem isPositive_powersOfTen : Float.exactlyRepresentablePowersOfTen.all isPositive := by
  decide +kernel

theorem unsigned_scaled (m : Nat) (e : Int) : Unsigned (scaled m e).toModel.unpack := by
  unfold scaled Float.ofScientific
  split
  · rename_i small
    have bound : e.natAbs < Float.exactlyRepresentablePowersOfTen.size := by
      have := small.2
      simp only [Float.exactlyRepresentablePowersOfTen, List.size_toArray, List.length_cons,
        List.length_nil]
      omega
    have positive := Array.all_eq_true.mp isPositive_powersOfTen e.natAbs bound
    obtain ⟨m', e', pos, power⟩ := isPositive_iff.mp positive
    have first : Unsigned m.toUInt64.toFloat.toModel.unpack := (unsigned_ofNat _).pack
    split
    · have quotient : Unsigned (UnpackedFloat.div .binary64 _ (.finite .positive m' e' pos)) :=
        first.div
      rw [← power] at quotient
      exact quotient.pack
    · have product : Unsigned (UnpackedFloat.mul .binary64 _ (.finite .positive m' e' pos)) :=
        first.mul
      rw [← power] at product
      exact product.pack
  · exact (unsigned_ofScientific _ _).pack

theorem unsigned_ofDigits (digits : List Char) (e : Int) :
    Unsigned (ofDigits digits e).toModel.unpack := by
  unfold ofDigits
  dsimp only
  split <;> exact unsigned_scaled _ _

/-- What starts with a digit has no sign, and is no name of a number. -/
theorem unsigned_ofDecimal {c : Char} {cs : List Char} {x : Float} (digit : c.isDigit)
    (read : ofDecimal? (String.ofList (c :: cs)) = some x) : Unsigned x.toModel.unpack := by
  have plain : splitSign (c :: cs) = (false, c :: cs) := by
    unfold splitSign
    split
    · rename_i same
      cases same
      cases digit
    · rename_i same
      cases same
      cases digit
    · rfl
  have whole : ((c :: cs).takeWhile Char.isDigit).isEmpty = false := by
    rw [List.takeWhile_cons_of_pos digit, List.isEmpty_cons]
  unfold ofDecimal? unsigned? at read
  simp only [String.toList_ofList, plain, whole, Bool.false_and, Bool.false_eq_true, if_false,
    Option.map_map, Option.map_eq_some_iff] at read
  obtain ⟨e, -, rfl⟩ := read
  exact unsigned_ofDigits _ _

end Scriptlet.Number
