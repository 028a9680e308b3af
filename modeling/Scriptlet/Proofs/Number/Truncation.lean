import Scriptlet.Number.Text
import Scriptlet.Proofs.Number.Integers
import Scriptlet.Proofs.Number.TreeText
import Scriptlet.Proofs.Text.Classes
import Scriptlet.Proofs.Text.Trimming

/-! # From numbers to integers

A number becomes an integer by truncation, which stops at the bounds of 64 bits, or by way of its
text, which spells the integer as long as it is short. -/

namespace Scriptlet.Number

open Float.Model Float.Model.UnpackedFloat

variable {x : Float} {v : ℚ} {k : Int}

/-! ## Truncation -/

/-- The integer next to a rational on the side of zero. -/
def truncated (v : ℚ) : Int :=
  if 0 ≤ v then ⌊v⌋ else ⌈v⌉

theorem truncated_intCast (k : Int) : truncated k = k := by
  unfold truncated
  split
  · exact Int.floor_intCast k
  · exact Int.ceil_intCast k

theorem truncated_apply (sign : Sign) (nonneg : 0 ≤ v) :
    truncated (sign.apply 1 * v) = sign.apply ⌊v⌋ := by
  cases sign with
  | positive => simp [truncated, Sign.apply, nonneg]
  | negative =>
      have flip : ((Sign.negative.apply 1 : Int) : ℚ) * v = -v := by simp [Sign.apply]
      rw [flip, truncated]
      split
      · obtain rfl : v = 0 := by linarith
        simp [Sign.apply]
      · rw [Int.ceil_neg]
        rfl

theorem roundToInt_eq (sign : Sign) (m : Nat) (e : Int) :
    roundToInt sign m e = truncated (sign.apply m * 2 ^ e) := by
  have value : (sign.apply m : ℚ) * 2 ^ e = sign.apply 1 * (m * 2 ^ e) := by
    cases sign <;> simp [Sign.apply]
  have floor : ⌊(m : ℚ) * 2 ^ e⌋ = ((m * 2 ^ e.toNat / 2 ^ (-e).toNat : ℕ) : Int) := by
    rw [zpow_eq_toNat_div, ← mul_div_assoc, Int.natCast_ediv, ← Rat.floor_intCast_div_natCast]
    push_cast
    rfl
  have shifted : (0 - (e - (e.toNat : Int))).toNat = (-e).toNat := by omega
  rw [value, truncated_apply sign (by positivity), floor]
  simp only [roundToInt, decreaseExponent, shiftToExponent, Int.sub_zero, shifted,
    mantissa_shiftRight, ExtendedMantissa.ofMantissaAndAccuracy, Nat.shiftLeft_eq]

/-- The integer of 64 bits that is nearest to an integer. -/
def clamped (n : Int) : Int :=
  max (-2 ^ 63) (min n (2 ^ 63 - 1))

theorem toInt_ofIntClamp (n : Int) : (Int64.ofIntClamp n).toInt = clamped n := by
  have least : Int64.minValue.toInt = -2 ^ 63 := by decide
  have most : Int64.maxValue.toInt = 2 ^ 63 - 1 := by decide
  unfold Int64.ofIntClamp clamped
  split
  · split
    · rw [Int64.toInt_ofIntLE]
      omega
    · omega
  · omega

/-- A finite number is truncated, and brought into the range of 64 bits. -/
theorem toInt_toInt64 (h : rational? x = some v) : (toInt64 x).toInt = clamped (truncated v) := by
  change (Int64.ofIntClamp (x.toModel.unpack.toInt _ _)).toInt = _
  unfold rational? at h
  rw [toInt_ofIntClamp]
  split at h
  · rename_i zero
    cases h
    have none_left : truncated 0 = 0 := by exact_mod_cast truncated_intCast 0
    rw [zero, UnpackedFloat.toInt, none_left]
  · rename_i finite
    cases h
    rw [finite, UnpackedFloat.toInt, roundToInt_eq]
  · cases h

/-! ## Texts of integers -/

theorem whole?_of_rational? (h : rational? x = some (k : ℚ)) : whole? x = some k := by
  unfold rational? at h
  split at h
  · rename_i zero
    have zero_eq : k = 0 := by simpa [eq_comm] using h
    rw [whole?, zero, zero_eq]
  · rename_i sign m e pos finite
    have value : (sign.apply m : ℚ) * 2 ^ e = k := Option.some.inj h
    simp only [whole?, finite, Nat.pow_eq]
    split
    · rename_i nonneg
      obtain ⟨n, rfl⟩ := Int.eq_ofNat_of_zero_le nonneg
      refine congrArg some ?_
      rw [zpow_natCast] at value
      rw [← Int.cast_inj (α := ℚ), ← value]
      cases sign <;> simp [Sign.apply]
    · rename_i negative
      obtain ⟨n, rfl⟩ := Int.exists_eq_neg_ofNat (by omega : e ≤ 0)
      rw [zpow_neg, zpow_natCast, ← div_eq_mul_inv, div_eq_iff (by positivity)] at value
      have value : sign.apply m = k * 2 ^ n := by exact_mod_cast value
      have size : m = k.natAbs * 2 ^ n := by
        have sizes := congrArg Int.natAbs value
        rw [Int.natAbs_mul, Int.natAbs_pow] at sizes
        rw [show Int.natAbs 2 = 2 from rfl] at sizes
        rw [← sizes]
        cases sign <;> simp [Sign.apply]
      have power : 0 < 2 ^ n := Nat.pow_pos (by decide)
      rw [Int.neg_neg, Int.toNat_natCast, if_pos (by rw [size, Nat.mul_mod_left]), size,
        Nat.mul_div_cancel _ power]
      refine congrArg some ?_
      rw [size] at value
      have power : (2 : Int) ^ n ≠ 0 := by positivity
      refine Int.eq_of_mul_eq_mul_right power (Eq.trans ?_ value)
      cases sign <;> simp [Sign.apply]
  · cases h

theorem displayText_of_rational? (h : rational? x = some (k : ℚ)) (small : k.natAbs < 10 ^ 15) :
    displayText x = toString k := by
  have whole := whole?_of_rational? h
  unfold displayText
  split
  · rename_i infinite
    simp [rational?, infinite] at h
  · rw [whole]
    exact if_pos small

/-- The text of an integer: its digits, behind a minus if it is negative. -/
theorem toList_toString (k : Int) :
    (toString k).toList = (if k < 0 then ['-'] else []) ++ k.natAbs.repr.toList := by
  cases k with
  | ofNat n => rfl
  | negSucc n =>
      have text : toString (Int.negSucc n) = "-" ++ (n + 1).repr := rfl
      rw [text, String.toList_append, if_pos (Int.negSucc_lt_zero n)]
      rfl

theorem integer?_toString (k : Int) : integer? (toString k).toList = some k := by
  have digits : ∀ c ∈ k.natAbs.repr.toList, c.isDigit := fun c => isDigit_of_mem_repr
  have some_digits : k.natAbs.repr.toList ≠ [] := by
    rw [ne_eq, ← List.length_eq_zero_iff]
    exact (Nat.length_repr_pos (n := k.natAbs)).ne'
  have split : splitSign (toString k).toList = (decide (k < 0), k.natAbs.repr.toList) := by
    rw [toList_toString]
    by_cases negative : k < 0
    · simp [negative, splitSign]
    · obtain ⟨c, cs, first⟩ := List.exists_cons_of_ne_nil some_digits
      have digit := digits c (by simp [first])
      rw [if_neg negative, List.nil_append, first, decide_eq_false negative]
      unfold splitSign
      split
      · rename_i same
        cases same
        cases digit
      · rename_i same
        cases same
        cases digit
      · rfl
  have all : k.natAbs.repr.toList.all Char.isDigit := List.all_eq_true.mpr digits
  have visible : k.natAbs.repr.toList.isEmpty = false := by simp
  simp only [integer?, signed?, split, visible, all, digitsValue_repr, Bool.not_false,
    Bool.and_self, if_true, decide_eq_true_eq]
  split <;> congr 1 <;> omega

theorem trim_toString (k : Int) : Text.trim (toString k).toList = (toString k).toList := by
  have visible : ∀ c ∈ (toString k).toList, Text.isBlank c = false := by
    intro c mem
    rw [toList_toString, List.mem_append] at mem
    rcases mem with sign | digit
    · split at sign
      · obtain rfl : c = '-' := by simpa using sign
        decide
      · cases sign
    · exact Text.isBlank_of_digit (isDigit_of_mem_repr digit)
  exact Text.trim_eq_self (fun c first => visible c (List.mem_of_mem_head? first)) fun c last =>
    visible c (List.mem_of_getLast? last)

end Scriptlet.Number
