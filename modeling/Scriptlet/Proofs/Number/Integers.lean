import Mathlib
import Scriptlet.Number.Rounding
import Scriptlet.Proofs.Number.Shortest

/-! # Integers among the numbers

The number nearest to an integer is the integer itself if a number is equal to it, and an integer in
any case. -/

namespace Scriptlet.Number

open Float.Model Float.Model.UnpackedFloat

/-- The rational that a finite number is equal to. -/
def rational? (x : Float) : Option ℚ :=
  match x.toModel.unpack with
  | .zero _ => some 0
  | .finite sign m e _ => some (sign.apply m * 2 ^ e)
  | _ => none

theorem isFinite_iff {x : Float} : x.isFinite ↔ ∃ v, rational? x = some v := by
  change x.toModel.unpack.isFinite ↔ _
  unfold rational?
  cases x.toModel.unpack <;> simp [UnpackedFloat.isFinite]

/-! ## Shifting a mantissa -/

theorem mantissa_shiftRight (em : ExtendedMantissa) (k : Nat) :
    (em >>> k).mantissa = em.mantissa / 2 ^ k := by
  induction k with
  | zero => exact (Nat.div_one _).symm
  | succ k ih =>
      change (em >>> k).mantissa / 2 = _
      rw [ih, Nat.div_div_eq_div_mul, Nat.pow_succ]

/-- Nothing is lost of a mantissa that ends in as many zeros. -/
theorem shiftRight_mul_pow (m k : Nat) :
    ExtendedMantissa.mk (m * 2 ^ k) false false >>> k = ⟨m, false, false⟩ := by
  induction k generalizing m with
  | zero =>
      rw [Nat.pow_zero, Nat.mul_one]
      rfl
  | succ k ih =>
      change (ExtendedMantissa.mk (m * 2 ^ (k + 1)) false false >>> k).shiftRightOne = _
      rw [Nat.pow_succ', ← Nat.mul_assoc, ih]
      simp [ExtendedMantissa.shiftRightOne]

theorem roundedMantissa_bounds (em : ExtendedMantissa) :
    em.mantissa ≤ em.roundedMantissa ∧ em.roundedMantissa ≤ em.mantissa + 1 := by
  obtain ⟨m, half, more⟩ := em
  cases half <;> cases more <;>
    simp only [ExtendedMantissa.roundedMantissa, ExtendedMantissa.accuracy,
      Accuracy.roundToNearestEven] <;> omega

section Rounding

variable {sign : Sign} {n m : Nat} {e : Int}

theorem log2_of_full (full : 2 ^ 52 ≤ m) (short : m < 2 ^ 53) : m.log2 = 52 :=
  (Nat.log2_eq_iff (by omega)).mpr ⟨full, short⟩

theorem targetExponent_eq (least : -1074 ≤ e) (bits : m.log2 = 52) (k : Nat) :
    Format.binary64.targetExponent (totalExponent m e + k) = e + k := by
  simp only [Format.targetExponent, totalExponent, bits, Format.mantissaBits, Format.minExponent]
  omega

/-- A mantissa of 53 bits stays as it is. -/
theorem shiftToTargetExponent_full (full : 2 ^ 52 ≤ m) (short : m < 2 ^ 53) (least : -1074 ≤ e) :
    shiftToTargetExponent .binary64 m e .exact = (⟨m, false, false⟩, e) := by
  have target := targetExponent_eq least (log2_of_full full short) 0
  simp only [Nat.cast_zero, Int.add_zero] at target
  simp only [shiftToTargetExponent, shiftToExponent, target, Int.sub_self, Int.toNat_zero,
    Nat.cast_zero, Int.add_zero]
  rfl

/-- One bit too many is shifted out. -/
theorem shiftToTargetExponent_carry (least : -1074 ≤ e) :
    shiftToTargetExponent .binary64 (2 ^ 53) e .exact = (⟨2 ^ 52, false, false⟩, e + 1) := by
  have target : Format.binary64.targetExponent (totalExponent (2 ^ 53) e) = e + 1 := by
    simp only [Format.targetExponent, totalExponent, Nat.log2_two_pow, Format.mantissaBits,
      Format.minExponent]
    omega
  have one : (e + 1 - e).toNat = 1 := by omega
  simp only [shiftToTargetExponent, shiftToExponent, target, one, Nat.cast_one]
  rfl

/-- After the first shift a mantissa is rounded, and shifted once more if that takes a bit. -/
theorem roundWithAccuracy_eq {em : ExtendedMantissa} {e' : Int} {accuracy : Accuracy}
    (first : shiftToTargetExponent .binary64 m e accuracy = (em, e')) (least : -1074 ≤ e')
    (full : 2 ^ 52 ≤ em.roundedMantissa) :
    (∀ short : em.roundedMantissa < 2 ^ 53, roundWithAccuracy .binary64 sign m e accuracy =
      .finite sign em.roundedMantissa e' (by omega)) ∧
    (em.roundedMantissa = 2 ^ 53 → roundWithAccuracy .binary64 sign m e accuracy =
      .finite sign (2 ^ 52) (e' + 1) (by decide)) := by
  constructor
  · intro short
    have positive : em.roundedMantissa ≠ 0 := by omega
    simp only [roundWithAccuracy, first, shiftToTargetExponent_full full short least,
      dif_neg positive]
  · intro carry
    have positive : ¬ 2 ^ 52 = 0 := by decide
    simp only [roundWithAccuracy, first, carry, shiftToTargetExponent_carry least,
      dif_neg positive]

/-! ## Rounding an integer -/

theorem log2_mul_pow (pos : 0 < n) (k : Nat) : (n * 2 ^ k).log2 = n.log2 + k := by
  have power : 0 < 2 ^ k := Nat.pow_pos (by decide)
  refine (Nat.log2_eq_iff (Nat.mul_pos pos power).ne').mpr ⟨?_, ?_⟩
  · rw [Nat.pow_add]
    exact Nat.mul_le_mul_right _ (Nat.log2_self_le pos.ne')
  · rw [Nat.add_right_comm, Nat.pow_add]
    exact Nat.mul_lt_mul_of_pos_right Nat.lt_log2_self power

theorem round_eq (sign : Sign) (n : Nat) {t : Int}
    (target : Format.binary64.targetExponent (totalExponent n 0) = t) :
    UnpackedFloat.round .binary64 sign n 0 =
      roundWithAccuracy .binary64 sign (n * 2 ^ (-t).toNat) (-((-t).toNat : Int)) .exact := by
  simp only [UnpackedFloat.round, target, decreaseExponent, Nat.shiftLeft_eq, Int.zero_sub]

/-- An integer with at most 53 significant bits is kept. -/
theorem round_of_eq (full : 2 ^ 52 ≤ m) (short : m < 2 ^ 53) (least : -1074 ≤ e)
    (same : n * 2 ^ (-e).toNat = m * 2 ^ e.toNat) :
    UnpackedFloat.round .binary64 sign n 0 = .finite sign m e (by omega) := by
  have pos : 0 < n := by
    refine Nat.pos_of_mul_pos_right (b := 2 ^ (-e).toNat) ?_
    rw [same]
    exact Nat.mul_pos (by omega) (Nat.pow_pos (by decide))
  have bits : n.log2 + (-e).toNat = 52 + e.toNat := by
    rw [← log2_mul_pow pos, same, log2_mul_pow (by omega), log2_of_full full short]
  have target : Format.binary64.targetExponent (totalExponent n 0) = e := by
    simp only [Format.targetExponent, totalExponent, Format.mantissaBits, Format.minExponent]
    omega
  have first : shiftToTargetExponent .binary64 (m * 2 ^ e.toNat) (-((-e).toNat : Int)) .exact =
      (⟨m, false, false⟩, e) := by
    have target : Format.binary64.targetExponent
        (totalExponent (m * 2 ^ e.toNat) (-((-e).toNat : Int))) = e := by
      simp only [Format.targetExponent, totalExponent, Format.mantissaBits, Format.minExponent,
        log2_mul_pow (show 0 < m by omega), log2_of_full full short]
      omega
    have amount : (e - -((-e).toNat : Int)).toNat = e.toNat := by omega
    have exponent : -((-e).toNat : Int) + e.toNat = e := by omega
    simp only [shiftToTargetExponent, shiftToExponent, target, amount, exponent,
      ExtendedMantissa.ofMantissaAndAccuracy, shiftRight_mul_pow]
  rw [round_eq sign n target, same]
  exact (roundWithAccuracy_eq first least full).1 short

/-- A longer integer is rounded to an integer. -/
theorem round_of_large (large : 2 ^ 53 ≤ n) (bound : n < 2 ^ 64) :
    ∃ m e, ∃ full : 2 ^ 52 ≤ m, m < 2 ^ 53 ∧ 0 ≤ e ∧ e ≤ 12 ∧
      UnpackedFloat.round .binary64 sign n 0 = .finite sign m e (by omega) := by
  obtain ⟨k, bits⟩ : ∃ k, n.log2 = 52 + k :=
    Nat.exists_eq_add_of_le ((Nat.le_log2 (by omega)).mpr (by omega))
  have small : k ≤ 11 := by
    have := (Nat.log2_lt (by omega)).mpr bound
    omega
  have target : Format.binary64.targetExponent (totalExponent n 0) = k := by
    simp only [Format.targetExponent, totalExponent, bits, Format.mantissaBits,
      Format.minExponent]
    omega
  have power : 0 < 2 ^ k := Nat.pow_pos (by decide)
  set em := ExtendedMantissa.mk n false false >>> k with em_eq
  have first : shiftToTargetExponent .binary64 n 0 .exact = (em, (k : Int)) := by
    simp only [shiftToTargetExponent, shiftToExponent, target, Int.sub_zero, Int.toNat_natCast,
      Int.zero_add]
    rfl
  have full : 2 ^ 52 ≤ em.mantissa := by
    rw [em_eq, mantissa_shiftRight, Nat.le_div_iff_mul_le power, ← Nat.pow_add, ← bits]
    exact Nat.log2_self_le (by omega)
  have short : em.mantissa < 2 ^ 53 := by
    rw [em_eq, mantissa_shiftRight, Nat.div_lt_iff_lt_mul power, ← Nat.pow_add,
      show 53 + k = n.log2 + 1 by omega]
    exact Nat.lt_log2_self
  obtain ⟨low, high⟩ := roundedMantissa_bounds em
  have shifted : UnpackedFloat.round .binary64 sign n 0 =
      roundWithAccuracy .binary64 sign n 0 .exact := by
    have none_left : (-(k : Int)).toNat = 0 := by omega
    rw [round_eq sign n target, none_left, Nat.pow_zero, Nat.mul_one]
    rfl
  have rounded := @roundWithAccuracy_eq sign _ _ _ _ _ first (by omega) (full.trans low)
  rw [shifted]
  by_cases fits : em.roundedMantissa < 2 ^ 53
  · exact ⟨_, k, full.trans low, fits, by omega, by omega, rounded.1 fits⟩
  · exact ⟨2 ^ 52, k + 1, le_rfl, by decide, by omega, by omega, rounded.2 (by omega)⟩

end Rounding

/-! ## Packing -/

theorem unpack_pack_full {sign : Sign} {m : Nat} {e : Int} (full : 2 ^ 52 ≤ m) (short : m < 2 ^ 53)
    (least : -1074 ≤ e) (most : e ≤ 971) :
    (Float.Model.pack (.finite sign m e (by omega))).unpack = .finite sign m e (by omega) := by
  have bias : Format.binary64.exponentBias = 1023 := rfl
  obtain ⟨stored, stored_eq⟩ : ∃ stored : Nat, (stored : Int) = e + 1075 :=
    ⟨(e + 1075).toNat, by omega⟩
  have exponent : (e + Format.binary64.exponentBias + (52 : ℕ)).toNat = stored := by
    rw [bias]
    omega
  have packed : UnpackedFloat.pack .binary64 (.finite sign m e (by omega)) =
      packComponents .binary64 sign (BitVec.ofNat 11 stored) (BitVec.ofNat 52 m) := by
    have small : ¬ 2 ^ 11 ≤ stored + 1 := by omega
    have bits : m.log2 + 1 = Format.binary64.mantissaBits := by
      rw [log2_of_full full short]
      rfl
    simp only [UnpackedFloat.pack, exponent, if_neg small, if_pos bits]
  have exponent_toNat : (BitVec.ofNat 11 stored).toNat = stored := by
    rw [BitVec.toNat_ofNat, Nat.mod_eq_of_lt (by omega)]
  have not_full : BitVec.ofNat 11 stored ≠ -1#11 := by
    intro same
    have all : (-1#11).toNat = 2047 := by decide
    have := congrArg BitVec.toNat same
    omega
  have not_zero : BitVec.ofNat 11 stored ≠ 0#11 := by
    intro same
    have none_set : (0#11).toNat = 0 := rfl
    have := congrArg BitVec.toNat same
    omega
  have mantissa : (1#1 ++ BitVec.ofNat 52 m).toNat = m := by
    rw [toNat_one_append, BitVec.toNat_ofNat]
    omega
  have back : (stored : Int) - (1023 + 52) = e := by omega
  change UnpackedFloat.unpack .binary64 (UnpackedFloat.pack .binary64 _) = _
  rw [packed]
  simp only [UnpackedFloat.unpack, unpackMantissa_packComponents, unpackExponent_packComponents,
    unpackSign_packComponents, Sign.ofBitVec_toBitVec, if_neg not_full, if_neg not_zero,
    exponent_toNat, mantissa, bias]
  congr 1

/-! ## Numbers of integers -/

/-- `n` is `m * 2 ^ e` with a mantissa of 53 bits. -/
structure Significand (n m : Nat) (e : Int) : Prop where
  full : 2 ^ 52 ≤ m
  short : m < 2 ^ 53
  least : -1074 ≤ e
  most : e ≤ 971
  same : n * 2 ^ (-e).toNat = m * 2 ^ e.toNat

theorem Significand.cast_eq {n m : Nat} {e : Int} (h : Significand n m e) :
    (n : ℚ) = m * 2 ^ e := by
  have same : (n : ℚ) * 2 ^ (-e).toNat = m * 2 ^ e.toNat := by exact_mod_cast h.same
  rw [zpow_eq_toNat_div, ← mul_div_assoc, ← same]
  field_simp

theorem exists_significand {n : Nat} (pos : 0 < n) (small : n < 2 ^ 53) :
    ∃ m e, Significand n m e := by
  have bits : n.log2 < 53 := (Nat.log2_lt pos.ne').mpr small
  have negative : (-((n.log2 : Int) - 52)).toNat = 52 - n.log2 := by omega
  have positive : ((n.log2 : Int) - 52).toNat = 0 := by omega
  refine ⟨n * 2 ^ (52 - n.log2), n.log2 - 52, ?_, ?_, by omega, by omega, ?_⟩
  · have low := Nat.mul_le_mul_right (2 ^ (52 - n.log2)) (Nat.log2_self_le pos.ne')
    rwa [← Nat.pow_add, show n.log2 + (52 - n.log2) = 52 by omega] at low
  · have high := Nat.mul_lt_mul_of_pos_right (Nat.lt_log2_self (n := n))
      (Nat.pow_pos (n := 52 - n.log2) (show 0 < 2 by decide))
    rwa [← Nat.pow_add, show n.log2 + 1 + (52 - n.log2) = 53 by omega] at high
  · rw [negative, positive, Nat.pow_zero, Nat.mul_one]

/-- The parts of a number that is equal to an integer. -/
theorem significand_of_canonical {n m : Nat} {e : Int} (c : Canonical m e) (pos : 0 < n)
    (bound : n < 2 ^ 64) (same : (n : ℚ) = m * 2 ^ e) : Significand n m e := by
  have same : n * 2 ^ (-e).toNat = m * 2 ^ e.toNat := by
    rw [zpow_eq_toNat_div, ← mul_div_assoc, eq_div_iff (by positivity)] at same
    exact_mod_cast same
  have full : 2 ^ 52 ≤ m := by
    refine c.full.resolve_right fun least => ?_
    have short := c.short
    have large : 2 ^ 53 ≤ n * 2 ^ (-e).toNat :=
      (Nat.pow_le_pow_right (by decide) (by omega)).trans (Nat.le_mul_of_pos_left _ pos)
    rw [same, least] at large
    simp only [Int.reduceNeg, Int.reduceToNat, Nat.pow_zero, Nat.mul_one] at large
    omega
  refine ⟨full, c.short, c.least, ?_, same⟩
  by_contra most
  have none_left : (-e).toNat = 0 := by omega
  have large : 2 ^ 52 * 2 ^ 12 ≤ m * 2 ^ e.toNat :=
    Nat.mul_le_mul full (Nat.pow_le_pow_right (by decide) (by omega))
  rw [← same, none_left] at large
  omega

def signOf (x : Int) : Sign :=
  if x < 0 then .negative else .positive

theorem apply_signOf (x : Int) : (signOf x).apply x.natAbs = x := by
  unfold signOf
  split <;> simp only [Sign.apply] <;> omega

theorem unpack_ofInt {x : Int} (nonzero : x ≠ 0) :
    (ofInt x).toModel.unpack =
      (Float.Model.pack (UnpackedFloat.round .binary64 (signOf x) x.natAbs 0)).unpack := by
  have rounded : UnpackedFloat.ofInt .binary64 x =
      UnpackedFloat.round .binary64 (signOf x) x.natAbs 0 := by
    unfold UnpackedFloat.ofInt UnpackedFloat.normalize signOf
    split
    · rename_i negative
      have negative := Int.compare_eq_lt.mp negative
      rw [if_pos negative, show (-x).toNat = x.natAbs by omega]
    · rename_i zero
      exact (nonzero (Int.compare_eq_eq.mp zero)).elim
    · rename_i positive
      have positive := Int.compare_eq_gt.mp positive
      rw [if_neg (by omega), show x.toNat = x.natAbs by omega]
  rw [← rounded]
  rfl

theorem rational?_ofInt_of_significand {x : Int} (nonzero : x ≠ 0) {m : Nat} {e : Int}
    (h : Significand x.natAbs m e) : rational? (ofInt x) = some (x : ℚ) := by
  rw [rational?, unpack_ofInt nonzero, round_of_eq h.full h.short h.least h.same,
    unpack_pack_full h.full h.short h.least h.most]
  have value : ((signOf x).apply m : ℚ) * 2 ^ e = (signOf x).apply x.natAbs := by
    cases signOf x <;>
      simp only [Sign.apply, Int.cast_neg, Int.cast_natCast, h.cast_eq, neg_mul]
  exact congrArg some (value.trans (by rw [apply_signOf]))

theorem rational?_ofInt_zero : rational? (ofInt 0) = some 0 := by
  have zero : (ofInt 0).toModel.unpack = .zero .positive := unpack_packedZero
  rw [rational?, zero]

/-- The number nearest to an integer is equal to it if any number is. -/
theorem rational?_ofInt_of_eq {x : Int} (bound : x.natAbs < 2 ^ 64) {y : Float}
    (same : rational? y = some (x : ℚ)) : rational? (ofInt x) = some (x : ℚ) := by
  by_cases nonzero : x = 0
  · subst nonzero
    simpa using rational?_ofInt_zero
  unfold rational? at same
  split at same
  · rename_i zero
    exact (nonzero (by simpa [eq_comm] using same)).elim
  · rename_i sign m e pos finite
    have value : (x : ℚ) = sign.apply m * 2 ^ e := (Option.some.inj same).symm
    have size : (x.natAbs : ℚ) = m * 2 ^ e := by
      have power : (0 : ℚ) < 2 ^ e := zpow_pos (by norm_num) e
      rw [Nat.cast_natAbs, Int.cast_abs, value, abs_mul, abs_of_pos power]
      cases sign <;> simp [Sign.apply]
    exact rational?_ofInt_of_significand nonzero
      (significand_of_canonical (canonical_of_unpack finite) (by omega) bound size)
  · cases same

theorem rational?_ofInt_of_small {x : Int} (small : x.natAbs < 2 ^ 53) :
    rational? (ofInt x) = some (x : ℚ) := by
  by_cases nonzero : x = 0
  · subst nonzero
    simpa using rational?_ofInt_zero
  · obtain ⟨m, e, h⟩ := exists_significand (n := x.natAbs) (by omega) small
    exact rational?_ofInt_of_significand nonzero h

/-- The number nearest to an integer is an integer. -/
theorem exists_rational?_ofInt {x : Int} (bound : x.natAbs < 2 ^ 64) :
    ∃ k : Int, rational? (ofInt x) = some (k : ℚ) := by
  by_cases small : x.natAbs < 2 ^ 53
  · exact ⟨x, rational?_ofInt_of_small small⟩
  · obtain ⟨m, e, full, short, nonneg, most, rounded⟩ :=
      @round_of_large (signOf x) x.natAbs (by omega) bound
    obtain ⟨k, rfl⟩ := Int.eq_ofNat_of_zero_le nonneg
    have finite := unpack_ofInt (x := x) (by omega)
    rw [rounded, unpack_pack_full full short (by omega) (by omega)] at finite
    refine ⟨(signOf x).apply m * 2 ^ k, ?_⟩
    rw [rational?, finite]
    simp

end Scriptlet.Number
