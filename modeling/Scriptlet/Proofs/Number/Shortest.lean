import Scriptlet.Number.Shortest
import Scriptlet.Proofs.Number.Unpacking

/-! # Shortest decimals

The shortest decimal of a number rounds to the number. Nothing rounds to two numbers, so different
numbers have different decimals. -/

namespace Scriptlet.Number

variable {m m' : Nat} {e e' k : Int} {v v' : ℚ}

/-! ## Rounding -/

/-- A quarter of the last place of a number with the exponent `e`. -/
def quarter (e : Int) : ℚ :=
  2 ^ (e - 2)

theorem quarter_pos (e : Int) : 0 < quarter e :=
  zpow_pos (by norm_num) _

/-- How many quarters of its last place the neighbourhood of a number reaches below it. -/
def reach (m : Nat) (e : Int) : Nat :=
  if m = Nat.pow 2 52 ∧ -1074 < e then 1 else 2

theorem reach_le (m : Nat) (e : Int) : 1 ≤ reach m e ∧ reach m e ≤ 2 := by
  unfold reach
  split <;> omega

/-- The least number with 53 bits has the smaller half of its neighbourhood below it. -/
theorem reach_of_full (full : 2 ^ 52 ≤ m) (high : -1074 < e) : 2 ^ 54 - 1 + reach m e ≤ 4 * m := by
  unfold reach
  split
  · omega
  · rename_i other
    have more : m ≠ Nat.pow 2 52 := fun same => other ⟨same, high⟩
    simp only [Nat.pow_eq] at more
    omega

/-- The rational `v` rounds to `m * 2 ^ e`. A tie goes to the even mantissa. -/
def Rounds (m : Nat) (e : Int) (v : ℚ) : Prop :=
  if m % 2 = 0 then (4 * m - reach m e : ℕ) * quarter e ≤ v ∧ v ≤ (4 * m + 2 : ℕ) * quarter e
  else (4 * m - reach m e : ℕ) * quarter e < v ∧ v < (4 * m + 2 : ℕ) * quarter e

theorem Rounds.low_le (h : Rounds m e v) : (4 * m - reach m e : ℕ) * quarter e ≤ v := by
  unfold Rounds at h
  split at h
  · exact h.1
  · exact h.1.le

theorem Rounds.le_high (h : Rounds m e v) : v ≤ (4 * m + 2 : ℕ) * quarter e := by
  unfold Rounds at h
  split at h
  · exact h.2
  · exact h.2.le

theorem Rounds.of_lt (low : (4 * m - reach m e : ℕ) * quarter e < v)
    (high : v < (4 * m + 2 : ℕ) * quarter e) : Rounds m e v := by
  unfold Rounds
  split
  · exact ⟨low.le, high.le⟩
  · exact ⟨low, high⟩

theorem rounds_self (pos : 0 < m) : Rounds m e ((4 * m : ℕ) * quarter e) := by
  have bounds := reach_le m e
  refine .of_lt ?_ ?_ <;>
    exact mul_lt_mul_of_pos_right (Nat.cast_lt.mpr (by omega)) (quarter_pos e)

theorem Rounds.pos (h : Rounds m e v) (pos : 0 < m) : 0 < v := by
  have bounds := reach_le m e
  have low : 0 < (4 * m - reach m e : ℕ) * quarter e :=
    mul_pos (Nat.cast_pos.mpr (by omega)) (quarter_pos e)
  exact low.trans_le h.low_le

/-! ## Neighbourhoods lie apart -/

theorem Rounds.lt_high (h : Rounds m e v) (odd : m % 2 ≠ 0) :
    v < (4 * m + 2 : ℕ) * quarter e := by
  rw [Rounds, if_neg odd] at h
  exact h.2

theorem Rounds.low_lt (h : Rounds m e v) (odd : m % 2 ≠ 0) :
    (4 * m - reach m e : ℕ) * quarter e < v := by
  rw [Rounds, if_neg odd] at h
  exact h.1

theorem mul_quarter_le {a b : Nat} (le : a ≤ b) (e : Int) :
    (a : ℚ) * quarter e ≤ b * quarter e :=
  mul_le_mul_of_nonneg_right (Nat.cast_le.mpr le) (quarter_pos e).le

theorem mul_quarter_lt {a b : Nat} (lt : a < b) (e : Int) :
    (a : ℚ) * quarter e < b * quarter e :=
  mul_lt_mul_of_pos_right (Nat.cast_lt.mpr lt) (quarter_pos e)

/-- Numbers with the same exponent. Where their neighbourhoods touch, one mantissa is odd. -/
theorem rounds_lt_of_mantissa (less : m < m') (h : Rounds m e v) (h' : Rounds m' e v') :
    v < v' := by
  have bounds := reach_le m' e
  by_cases odd : m % 2 = 0
  · by_cases odd' : m' % 2 = 0
    · exact h.le_high.trans_lt ((mul_quarter_lt (by omega) e).trans_le h'.low_le)
    · exact h.le_high.trans_lt ((mul_quarter_le (by omega) e).trans_lt (h'.low_lt odd'))
  · exact (h.lt_high odd).trans_le ((mul_quarter_le (by omega) e).trans h'.low_le)

/-- Numbers with different exponents. -/
theorem rounds_lt_of_exponent (less : e < e') (c : Canonical m e) (c' : Canonical m' e')
    (h : Rounds m e v) (h' : Rounds m' e' v') : v < v' := by
  have high : -1074 < e' := lt_of_le_of_lt c.least less
  have low : 2 ^ 54 - 1 + reach m' e' ≤ 4 * m' :=
    reach_of_full (c'.full.resolve_right high.ne') high
  have double : 2 * quarter e ≤ quarter e' := by
    unfold quarter
    rw [← zpow_one_add₀ (by norm_num)]
    exact zpow_le_zpow_right₀ (by norm_num) (by omega)
  have border : (2 ^ 55 - 2 : ℕ) * quarter e ≤ v' := calc
    _ = (2 ^ 54 - 1 : ℕ) * (2 * quarter e) := by norm_num [← mul_assoc]
    _ ≤ (2 ^ 54 - 1 : ℕ) * quarter e' := mul_le_mul_of_nonneg_left double (by norm_num)
    _ ≤ (4 * m' - reach m' e' : ℕ) * quarter e' := mul_quarter_le (by omega) e'
    _ ≤ v' := h'.low_le
  have short := c.short
  by_cases odd : m % 2 = 0
  · exact h.le_high.trans_lt ((mul_quarter_lt (by omega) e).trans_le border)
  · exact (h.lt_high odd).trans_le ((mul_quarter_le (by omega) e).trans border)

/-- Nothing rounds to two numbers. -/
theorem rounds_unique (c : Canonical m e) (c' : Canonical m' e') (h : Rounds m e v)
    (h' : Rounds m' e' v) : m = m' ∧ e = e' := by
  rcases lt_trichotomy e e' with less | rfl | greater
  · exact (lt_irrefl v (rounds_lt_of_exponent less c c' h h')).elim
  · rcases lt_trichotomy m m' with less | rfl | greater
    · exact (lt_irrefl v (rounds_lt_of_mantissa less h h')).elim
    · exact ⟨rfl, rfl⟩
    · exact (lt_irrefl v (rounds_lt_of_mantissa greater h' h)).elim
  · exact (lt_irrefl v (rounds_lt_of_exponent greater c' c h' h)).elim

/-! ## The grid of a power of ten -/

/-- A power with an integer exponent is a quotient of powers, one of which is one. -/
theorem zpow_eq_toNat_div (b : ℚ) (i : Int) : b ^ i = b ^ i.toNat / b ^ (-i).toNat := by
  rcases Int.le_total 0 i with nonneg | nonpos
  · obtain ⟨n, rfl⟩ := Int.eq_ofNat_of_zero_le nonneg
    simp
  · obtain ⟨n, rfl⟩ := Int.exists_eq_neg_ofNat nonpos
    simp

/-- What numerators and denominators of the grid of `10 ^ k` are multiplied by. -/
def gridScale (e k : Int) : ℚ :=
  2 ^ (2 - e).toNat * 10 ^ (-k).toNat

theorem gridScale_pos (e k : Int) : 0 < gridScale e k := by
  unfold gridScale
  positivity

theorem cast_quarters (a : Nat) (e k : Int) :
    ((a * Nat.pow 2 (e - 2).toNat * Nat.pow 10 (-k).toNat : ℕ) : ℚ) =
      a * quarter e * gridScale e k := by
  have flip : (-(e - 2)).toNat = (2 - e).toNat := by congr 1; omega
  rw [quarter, gridScale, zpow_eq_toNat_div 2 (e - 2), flip]
  simp only [Nat.pow_eq]
  push_cast
  field_simp

section Grid

variable {n : Nat}

theorem cast_units (n : Nat) :
    ((n * ((Neighbourhood.of m e).inUnits k).unit : ℕ) : ℚ) = n * 10 ^ k * gridScale e k := by
  change ((n * (Nat.pow 2 (2 - e).toNat * Nat.pow 10 k.toNat) : ℕ) : ℚ) = _
  rw [gridScale, zpow_eq_toNat_div 10 k]
  simp only [Nat.pow_eq]
  push_cast
  field_simp

/-- Comparing a count of quarters with a count of units. -/
theorem quarters_le_units {a : Nat} :
    a * Nat.pow 2 (e - 2).toNat * Nat.pow 10 (-k).toNat ≤
        n * ((Neighbourhood.of m e).inUnits k).unit ↔
      a * quarter e ≤ n * 10 ^ k := by
  rw [← Nat.cast_le (α := ℚ), cast_quarters, cast_units, mul_le_mul_iff_left₀ (gridScale_pos e k)]

theorem units_le_quarters {a : Nat} :
    n * ((Neighbourhood.of m e).inUnits k).unit ≤
        a * Nat.pow 2 (e - 2).toNat * Nat.pow 10 (-k).toNat ↔
      n * 10 ^ k ≤ a * quarter e := by
  rw [← Nat.cast_le (α := ℚ), cast_quarters, cast_units, mul_le_mul_iff_left₀ (gridScale_pos e k)]

/-- The units that a neighbourhood holds are those that round to its number. -/
theorem holds_inUnits :
    ((Neighbourhood.of m e).inUnits k).holds n ↔ Rounds m e (n * 10 ^ k) := by
  have low : ((Neighbourhood.of m e).inUnits k).low =
      (4 * m - reach m e) * Nat.pow 2 (e - 2).toNat * Nat.pow 10 (-k).toNat := rfl
  have high : ((Neighbourhood.of m e).inUnits k).high =
      (4 * m + 2) * Nat.pow 2 (e - 2).toNat * Nat.pow 10 (-k).toNat := rfl
  have closed : ((Neighbourhood.of m e).inUnits k).closed = decide (m % 2 = 0) := rfl
  unfold Neighbourhood.holds Rounds
  rw [low, high, closed]
  by_cases even : m % 2 = 0
  · simp only [even, decide_true, if_true, Bool.and_eq_true, decide_eq_true_eq]
    rw [quarters_le_units, units_le_quarters]
  · simp only [even, decide_false, Bool.false_eq_true, if_false, Bool.and_eq_true,
      decide_eq_true_eq]
    rw [← Nat.not_le, ← Nat.not_le, quarters_le_units, units_le_quarters, not_le, not_le]

/-- On a fine grid, the units that fit into a number round to it. -/
theorem rounds_floor (pos : 0 < m) (fine : 10 ^ k ≤ quarter e)
    (floor : n = ((Neighbourhood.of m e).inUnits k).value /
      ((Neighbourhood.of m e).inUnits k).unit) :
    Rounds m e (n * 10 ^ k) := by
  have value : ((Neighbourhood.of m e).inUnits k).value =
      4 * m * Nat.pow 2 (e - 2).toNat * Nat.pow 10 (-k).toNat := rfl
  have unit_pos : 0 < ((Neighbourhood.of m e).inUnits k).unit :=
    Nat.mul_pos (Nat.pow_pos (by decide)) (Nat.pow_pos (by decide))
  have fits : (n : ℚ) * 10 ^ k ≤ (4 * m : ℕ) * quarter e := by
    rw [← units_le_quarters (m := m), ← value, floor]
    exact Nat.div_mul_le_self _ _
  have next : (4 * m : ℕ) * quarter e < n * 10 ^ k + 10 ^ k := by
    rw [← add_one_mul, ← Nat.cast_succ, ← not_le, ← units_le_quarters (m := m), ← value, floor,
      Nat.not_le]
    exact (Nat.div_lt_iff_lt_mul unit_pos).mp (Nat.lt_succ_self _)
  have below : ((4 * m - reach m e : ℕ) : ℚ) * quarter e + quarter e ≤ (4 * m : ℕ) * quarter e := by
    have bounds := reach_le m e
    rw [← add_one_mul, ← Nat.cast_succ]
    exact mul_quarter_le (by omega) e
  refine .of_lt ?_ (fits.trans_lt (mul_quarter_lt (by omega) e))
  linarith

end Grid

/-! ## The search -/

theorem holds_of_nearest? {r : Neighbourhood} {n : Nat} (h : r.nearest? = some n) : r.holds n := by
  unfold Neighbourhood.nearest? at h
  dsimp only at h
  split at h
  · rename_i first
    cases h
    exact (Bool.and_eq_true_iff.mp first).1
  · split at h
    · rename_i second
      cases h
      exact second
    · cases h

/-- If the finest grid is fine enough, the search finds units that round to the number. -/
theorem search_rounds (pos : 0 < m) (fuel : Nat) (k : Int) (fine : 10 ^ (k - fuel) ≤ quarter e) :
    ∃ n k', (Neighbourhood.of m e).search fuel k = .ofUnits n k' ∧ Rounds m e (n * 10 ^ k') := by
  induction fuel generalizing k with
  | zero =>
      rw [Nat.cast_zero, Int.sub_zero] at fine
      exact ⟨_, k, rfl, rounds_floor pos fine rfl⟩
  | succ fuel ih =>
      rw [Neighbourhood.search]
      split
      · rename_i n found
        exact ⟨n, k, rfl, holds_inUnits.mp (holds_of_nearest? found)⟩
      · refine ih (k - 1) ?_
        have same : k - 1 - fuel = k - (fuel + 1 : ℕ) := by omega
        rwa [same]

theorem lt_pow_digitCount (n : Nat) : n < 10 ^ digitCount n :=
  (Nat.length_repr_le_iff Nat.length_repr_pos).mp (Nat.le_refl _)

theorem pow_digitCount_le {n : Nat} (pos : 0 < n) : 10 ^ (digitCount n - 1) ≤ n := by
  by_cases one : digitCount n = 1
  · rw [one]
    exact pos
  · have some_digits : 0 < digitCount n := Nat.length_repr_pos
    rw [← Nat.not_lt, ← Nat.length_repr_le_iff (by omega)]
    change ¬ digitCount n ≤ _
    omega

/-- A number is not below the power of ten that its magnitude stands for. -/
theorem pow_magnitude_le (pos : 0 < m) :
    10 ^ ((Neighbourhood.of m e).magnitude - 1) ≤ (4 * m : ℕ) * quarter e := by
  set value := (Neighbourhood.of m e).value with value_eq
  set unit := (Neighbourhood.of m e).unit with unit_eq
  have unit_pos : 0 < unit := Nat.pow_pos (by decide)
  have value_pos : 0 < value := Nat.mul_pos (by omega) (Nat.pow_pos (by decide))
  have scaled : (value : ℚ) = (4 * m : ℕ) * quarter e * unit := by
    have cast := cast_quarters (4 * m) e 0
    simpa [gridScale, value_eq, unit_eq, Neighbourhood.of] using cast
  have unit_cast : (0 : ℚ) < unit := Nat.cast_pos.mpr unit_pos
  unfold Neighbourhood.magnitude
  rw [← value_eq, ← unit_eq]
  split
  · rename_i large
    have whole : 0 < value / unit := Nat.div_pos large unit_pos
    have some_digits : 0 < digitCount (value / unit) := Nat.length_repr_pos
    have exponent :
        (digitCount (value / unit) : Int) - 1 = (digitCount (value / unit) - 1 : ℕ) := by
      omega
    rw [exponent, zpow_natCast, ← mul_le_mul_iff_left₀ unit_cast, ← scaled]
    exact_mod_cast (Nat.mul_le_mul_right unit (pow_digitCount_le whole)).trans
      (Nat.div_mul_le_self value unit)
  · have count := lt_pow_digitCount ((unit - 1) / value)
    rw [Nat.div_lt_iff_lt_mul value_pos] at count
    have exponent : 1 - (digitCount ((unit - 1) / value) : Int) - 1 =
        -(digitCount ((unit - 1) / value) : ℕ) := by
      omega
    rw [exponent, zpow_neg, zpow_natCast, inv_le_iff_one_le_mul₀ (by positivity),
      ← mul_le_mul_iff_left₀ unit_cast, one_mul, mul_right_comm, ← scaled, mul_comm]
    exact_mod_cast (show unit ≤ _ by omega)

/-- The shortest decimal of a number rounds to it. -/
theorem shortest_rounds (c : Canonical m e) :
    ∃ n k, shortest m e = .ofUnits n k ∧ Rounds m e (n * 10 ^ k) := by
  refine search_rounds c.positive 17 _ ?_
  have magnitude := pow_magnitude_le (e := e) c.positive
  have exponent : (Neighbourhood.of m e).magnitude - 1 - (17 : ℕ) =
      (Neighbourhood.of m e).magnitude - 1 + -17 := by
    omega
  rw [exponent, zpow_add₀ (by norm_num), zpow_neg, ← div_eq_mul_inv, div_le_iff₀ (by norm_num)]
  refine magnitude.trans ?_
  have short : ((4 * m : ℕ) : ℚ) ≤ (10 ^ 17 : ℕ) := Nat.cast_le.mpr (by have := c.short; omega)
  rw [mul_comm]
  refine mul_le_mul_of_nonneg_left (short.trans ?_) (quarter_pos e).le
  norm_num

end Scriptlet.Number
