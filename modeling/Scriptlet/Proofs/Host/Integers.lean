import Scriptlet.Host.Native
import Scriptlet.Proofs.Number.Truncation
import Scriptlet.Value.Store

/-! # Integers across the boundary of the host

An integer of the host becomes a number of the script, and comes back as it was if the number can
carry it. The same holds of the text of a short integer. -/

namespace Scriptlet

open Number

variable {text : String}

/-! ## What converts, and to what -/

theorem convert_eq_ok_iff {α : Type} [FromArgument α] {arg : Argument} {a : α} :
    convert α arg = .ok a ↔ ofArgument? arg = some a := by
  unfold convert
  split <;> simp_all

theorem int64_ofNumber {n : Float} {i : Int64} (finite : n.isFinite) :
    ofArgument? ⟨.number n, text⟩ = some i ↔ i = toInt64 n := by
  simp [ofArgument?, finite, eq_comm]

/-- The integers of 32 bits come by way of those of 64. -/
theorem int32_ofArgument {arg : Argument} {j : Int32} :
    ofArgument? arg = some j ↔ ∃ i : Int64, ofArgument? arg = some i ∧ i.toInt = j.toInt := by
  have fits : ∀ x : Int, int32? x = some j ↔ x = j.toInt := by
    intro x
    unfold int32?
    rw [Int32.toInt_minValue, Int32.toInt_maxValue]
    constructor
    · intro h
      split at h
      · rename_i within
        rw [← Option.some.inj h, Int32.toInt_ofInt_of_le within.1 (by omega)]
      · cases h
    · rintro rfl
      rw [if_pos ⟨j.le_toInt, by have := j.toInt_lt; omega⟩, Int32.ofInt_toInt]
  change (ofArgument? arg : Option Int64).bind (fun i => int32? i.toInt) = some j ↔ _
  simp only [Option.bind_eq_some_iff, fits]

/-- The text of a number that is equal to an integer spells the integer. -/
theorem int64_ofDisplay {x : Int64} {n : Float} (value : rational? n = some (x.toInt : ℚ))
    (small : x.toInt.natAbs < 10 ^ 15) :
    ofArgument? ⟨.string (displayText n), text⟩ = some x := by
  have spelled : integer? (Text.trim (displayText n).toList) = some x.toInt := by
    rw [displayText_of_rational? value small, trim_toString, integer?_toString]
  change (integer? (Text.trim (displayText n).toList)).bind int64? = some x
  rw [spelled, Option.bind_some, int64?, if_pos ⟨x.minValue_le_toInt, x.toInt_le⟩,
    Int64.ofInt_toInt]

/-! ## Integers that come back -/

/-- Truncation leaves an integer of 64 bits as it is. -/
theorem toInt_toInt64_of_whole {k : Int} {n : Float} (value : rational? n = some (k : ℚ))
    (least : -2 ^ 63 ≤ k) (most : k < 2 ^ 63) : (toInt64 n).toInt = k := by
  rw [toInt_toInt64 value, truncated_intCast]
  unfold clamped
  omega

theorem natAbs_toInt (x : Int64) : x.toInt.natAbs < 2 ^ 64 := by
  have := x.le_toInt
  have := x.toInt_lt
  omega

/-- An integer comes back if a number is equal to it. The largest one comes back as well: it is
rounded up to a number beyond the range, which is then brought back to the bound. -/
theorem toInt64_ofInt_iff (x : Int64) :
    toInt64 (ofInt x.toInt) = x ↔
      (∃ n : Float, rational? n = some (x.toInt : ℚ)) ∨ x = Int64.maxValue := by
  constructor
  · intro same
    obtain ⟨k, value⟩ := exists_rational?_ofInt (natAbs_toInt x)
    have clamps : clamped k = x.toInt := by
      rw [← truncated_intCast k, ← toInt_toInt64 value, same]
    by_cases greatest : x.toInt = 2 ^ 63 - 1
    · right
      rwa [← Int64.toInt_inj, Int64.toInt_maxValue]
    left
    by_cases least : x.toInt = -2 ^ 63
    · rw [least]
      exact ⟨ofInt (-2 ^ 63), by decide +kernel⟩
    · -- strictly inside the range nothing was brought back, so the rounded integer is the integer
      obtain rfl : k = x.toInt := by
        unfold clamped at clamps
        omega
      exact ⟨_, value⟩
  · rintro (⟨n, value⟩ | rfl)
    · have rounded := rational?_ofInt_of_eq (natAbs_toInt x) value
      exact Int64.toInt_inj.mp (toInt_toInt64_of_whole rounded x.le_toInt x.toInt_lt)
    · decide +kernel

theorem int32_toValue (x : Int32) : ofArgument? ⟨toValue x, text⟩ = some x := by
  have least := x.le_toInt
  have most := x.toInt_lt
  have value : rational? (ofInt x.toInt) = some (x.toInt : ℚ) :=
    rational?_ofInt_of_small (by omega)
  have finite := isFinite_iff.mpr ⟨_, value⟩
  exact int32_ofArgument.mpr ⟨_, (int64_ofNumber finite).mpr rfl,
    toInt_toInt64_of_whole value (by omega) (by omega)⟩

/-- The bounds of 64 bits do not matter to an integer of 32. -/
theorem int32_ofNumber {n : Float} {v : ℚ} (value : rational? n = some v) {j : Int32} :
    ofArgument? ⟨.number n, text⟩ = some j ↔ j.toInt = truncated v := by
  have least := j.le_toInt
  have most := j.toInt_lt
  have finite := isFinite_iff.mpr ⟨v, value⟩
  simp only [int32_ofArgument, int64_ofNumber finite, exists_eq_left, toInt_toInt64 value]
  unfold clamped
  omega

/-- Integers cross the boundary exactly where a number can carry them. An integer of 64 bits always
comes back as an integer, and as itself just if some number is equal to it or it is the largest one.
An integer of 32 bits comes back as itself. So does one of less than 16 digits if its number is
first shown as a text, which is converted. A finite number becomes an integer of 32 bits just if it
is one after truncation. -/
theorem integers_cross_boundary (text : String) (store : Store) :
    (∀ x : Int64, ∃ y, convert Int64 ⟨toValue x, text⟩ = .ok y ∧
      (y = x ↔ (∃ n : Float, rational? n = some (x.toInt : ℚ)) ∨ x = Int64.maxValue)) ∧
    (∀ x : Int32, convert Int32 ⟨toValue x, text⟩ = .ok x) ∧
    (∀ x : Int64, x.toInt.natAbs < 10 ^ 15 →
      (∃ n, toValue x = .number n ∧ rational? n = some (x.toInt : ℚ)) ∧
      ∀ n, rational? n = some (x.toInt : ℚ) →
        convert Int64 ⟨.string (store.display (.number n)), text⟩ = .ok x) ∧
    (∀ x : Int32, ∀ n, rational? n = some (x.toInt : ℚ) →
      convert Int32 ⟨.string (store.display (.number n)), text⟩ = .ok x) ∧
    ∀ n : Float, n.isFinite → ∃ v, rational? n = some v ∧
      ((∃ j, convert Int32 ⟨.number n, text⟩ = .ok j) ↔
        Int32.minValue.toInt ≤ truncated v ∧ truncated v ≤ Int32.maxValue.toInt) ∧
      ∀ j, convert Int32 ⟨.number n, text⟩ = .ok j → j.toInt = truncated v := by
  simp only [convert_eq_ok_iff]
  refine ⟨fun x => ?_, int32_toValue, fun x small => ?_, fun x n value => ?_, fun n finite => ?_⟩
  · obtain ⟨k, value⟩ := exists_rational?_ofInt (natAbs_toInt x)
    have finite := isFinite_iff.mpr ⟨_, value⟩
    exact ⟨_, (int64_ofNumber finite).mpr rfl, toInt64_ofInt_iff x⟩
  · exact ⟨⟨_, rfl, rational?_ofInt_of_small (by omega)⟩,
      fun n value => int64_ofDisplay value small⟩
  · have least := x.le_toInt
    have most := x.toInt_lt
    have same : x.toInt64.toInt = x.toInt := Int32.toInt_toInt64 x
    rw [← same] at value
    exact int32_ofArgument.mpr ⟨x.toInt64, int64_ofDisplay value (by omega), same⟩
  · obtain ⟨v, value⟩ := isFinite_iff.mp finite
    refine ⟨v, value, ?_, fun j => (int32_ofNumber value).mp⟩
    simp only [int32_ofNumber value]
    constructor
    · rintro ⟨j, same⟩
      rw [← same]
      exact ⟨j.minValue_le_toInt, j.toInt_le⟩
    · rintro ⟨least, most⟩
      rw [Int32.toInt_minValue] at least
      rw [Int32.toInt_maxValue] at most
      exact ⟨.ofInt (truncated v), Int32.toInt_ofInt_of_le least (by omega)⟩

/-- The largest integer of 15 digits and the least one of 32 bits. -/
theorem bounds_cross_boundary :
    (999999999999999 : Int64).toInt.natAbs < 10 ^ 15 ∧
    convert Int64 ⟨.string (Store.empty.display (.number (ofInt 999999999999999))), ""⟩ =
      .ok 999999999999999 ∧
    (ofInt (-2147483648)).isFinite ∧
    (∃ j, convert Int32 ⟨.number (ofInt (-2147483648)), ""⟩ = .ok j) ∧
    convert Int32 ⟨.string (Store.empty.display (.number (ofInt (-2147483648)))), ""⟩ =
      .ok (-2147483648) := by
  obtain ⟨-, -, shown, shown32, truncation⟩ := integers_cross_boundary "" .empty
  have small : (999999999999999 : Int64).toInt.natAbs < 10 ^ 15 := by decide
  have finite : (ofInt (-2147483648)).isFinite := by decide +kernel
  have value : rational? (ofInt (-2147483648)) =
      some (((-2147483648 : Int32).toInt : Int) : ℚ) := by
    decide +kernel
  obtain ⟨v, rational, fits, -⟩ := truncation _ finite
  have whole : truncated v = -2147483648 := by
    obtain rfl := Option.some.inj (rational.symm.trans value)
    exact truncated_intCast _
  refine ⟨small, (shown _ small).2 _ (by decide +kernel), finite, fits.mpr ?_, shown32 _ _ value⟩
  rw [whole]
  decide

end Scriptlet
