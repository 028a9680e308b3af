import Mathlib
import Scriptlet.Number.Rounding

/-! # Numbers from their parts

The sign, the mantissa and the exponent of a number determine it, and a finite number has them in
one form only. -/

namespace Scriptlet.Number

open Float.Model Float.Model.UnpackedFloat

variable {x y : Float} {sign : Sign} {m : Nat} {e : Int} {pos : 0 < m}

theorem eq_of_unpack (h : x.toModel.unpack = y.toModel.unpack) : x = y := by
  rw [← Float.toBits_inj, ← UInt64.toBitVec_inj]
  exact (unpack_inj_of_valid x.toModel.valid y.toModel.valid).mp h

/-- The mantissa has 53 bits, or fewer at the least exponent. -/
structure Canonical (m : Nat) (e : Int) : Prop where
  positive : 0 < m
  short : m < 2 ^ 53
  least : -1074 ≤ e
  full : 2 ^ 52 ≤ m ∨ e = -1074

theorem toNat_one_append (mantissa : BitVec 52) :
    (1#1 ++ mantissa).toNat = 2 ^ 52 + mantissa.toNat := by
  rw [BitVec.toNat_append, ← Nat.shiftLeft_add_eq_or_of_lt mantissa.isLt]
  rfl

/-- An exponent that is stored as zero stands for the least one. -/
theorem canonical_of_unpack (h : x.toModel.unpack = .finite sign m e pos) : Canonical m e := by
  have bias : Format.binary64.exponentBias = 1023 := rfl
  have few : (@unpackMantissa .binary64 x.toModel.toBits.toBitVec).toNat < 2 ^ 52 :=
    BitVec.isLt _
  change UnpackedFloat.unpack .binary64 x.toModel.toBits.toBitVec = _ at h
  unfold UnpackedFloat.unpack at h
  dsimp only at h
  split at h
  · split at h <;> cases h
  · split at h
    · rename_i exponent
      split at h
      · cases h
      · cases h
        rw [exponent, bias]
        exact ⟨pos, by omega, by decide, .inr (by decide)⟩
    · rename_i exponent
      cases h
      have stored := Nat.pos_of_ne_zero fun zero => exponent (BitVec.eq_of_toNat_eq zero)
      rw [toNat_one_append] at pos ⊢
      rw [bias]
      exact ⟨pos, by omega, by omega, .inl (by omega)⟩

end Scriptlet.Number
