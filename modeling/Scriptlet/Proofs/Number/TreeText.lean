import Scriptlet.Number.Text
import Scriptlet.Proofs.Number.Literals
import Scriptlet.Proofs.Number.Shortest
import Scriptlet.Proofs.Text.Trimming
import Scriptlet.Token.Scan

/-! # Numbers in syntax trees

The text of a number that is finite and not negative looks like a literal, and tells it from every
other such number. -/

namespace Scriptlet.Number

open Float.Model Float.Model.UnpackedFloat

/-! ## Digits -/

theorem digitsValue_append (digits more : List Char) :
    digitsValue (digits ++ more) = digitsValue digits * 10 ^ more.length + digitsValue more := by
  simp only [digitsValue_eq, List.foldl_append]
  exact foldl_appendDigit _ more

theorem digitsValue_zeros (n : Nat) : digitsValue (List.replicate n '0') = 0 := by
  rw [digitsValue_eq]
  exact Nat.ofDigitChars_replicate_zero

theorem digitsValue_repr (n : Nat) : digitsValue n.repr.toList = n := by
  rw [digitsValue_eq, Nat.toList_repr]
  exact Nat.ofDigitChars_ten_toDigits

theorem isDigit_of_mem_repr {n : Nat} {c : Char} (mem : c ∈ n.repr.toList) : c.isDigit := by
  rw [Nat.toList_repr] at mem
  exact Nat.isDigit_of_mem_toDigits (by decide) (by decide) mem

/-- What is dropped from the end of digits are zeros. -/
theorem exists_append_zeros (digits : List Char) :
    ∃ n, digits = Text.dropEndWhile (· = '0') digits ++ List.replicate n '0' := by
  obtain ⟨zeros, all, rest⟩ := Text.exists_dropEndWhile_append (· = '0') digits
  refine ⟨zeros.length, ?_⟩
  rwa [← List.eq_replicate_of_mem (by simpa using all)]

/-! ## Decimals -/

/-- The rational that a decimal stands for. -/
def Decimal.value (d : Decimal) : ℚ :=
  digitsValue d.digits * 10 ^ d.exponent

namespace Decimal

theorem value_ofUnits (n : Nat) (k : Int) : (ofUnits n k).value = n * 10 ^ k := by
  obtain ⟨zeros, all⟩ := exists_append_zeros n.repr.toList
  have units := digitsValue_repr n
  rw [all, digitsValue_append, digitsValue_zeros, Nat.add_zero, List.length_replicate] at units
  have dropped : n.repr.toList.length - (Text.dropEndWhile (· = '0') n.repr.toList).length =
      zeros := by
    have length := congrArg List.length all
    rw [List.length_append, List.length_replicate] at length
    omega
  simp only [value, ofUnits, dropped]
  rw [add_comm, zpow_add₀ (by norm_num), zpow_natCast, ← mul_assoc]
  congr 1
  exact_mod_cast units

theorem isDigit_ofUnits (n : Nat) (k : Int) : ∀ c ∈ (ofUnits n k).digits, c.isDigit := by
  obtain ⟨zeros, all⟩ := exists_append_zeros n.repr.toList
  intro c mem
  refine isDigit_of_mem_repr (n := n) ?_
  rw [all]
  exact List.mem_append_left _ mem

theorem digits_ofUnits_ne_nil {n : Nat} (pos : 0 < n) (k : Int) : (ofUnits n k).digits ≠ [] := by
  obtain ⟨zeros, all⟩ := exists_append_zeros n.repr.toList
  intro empty
  have units := digitsValue_repr n
  change Text.dropEndWhile (· = '0') n.repr.toList = [] at empty
  rw [all, empty, List.nil_append, digitsValue_zeros] at units
  omega

end Decimal

/-! ## Texts of rationals -/

/-- The rational that a text of digits with at most one point is read as. -/
def decimalValue (cs : List Char) : ℚ :=
  digitsValue (cs.filter Char.isDigit) / 10 ^ ((cs.dropWhile Char.isDigit).length - 1)

/-- `Written v text`: the text is a decimal, and the rational `v` is what it is read as. -/
inductive Written (v : ℚ) : List Char → Prop where
  | whole {digits : List Char} : digits ≠ [] → (∀ c ∈ digits, c.isDigit) →
      v = digitsValue digits → Written v digits
  | point {front back : List Char} : front ≠ [] → (∀ c ∈ front, c.isDigit) →
      (∀ c ∈ back, c.isDigit) → v = digitsValue (front ++ back) / 10 ^ back.length →
      Written v (front ++ '.' :: back)

theorem Written.decimalValue {v : ℚ} {text : List Char} (h : Written v text) :
    decimalValue text = v := by
  cases h with
  | whole _ all value =>
      rw [Number.decimalValue, List.filter_eq_self.mpr all, List.dropWhile_eq_nil_iff.mpr all,
        value]
      simp
  | @point front back _ all all' value =>
      have stop : (front ++ '.' :: back).dropWhile Char.isDigit = '.' :: back := by
        rw [List.dropWhile_append_of_pos all]
        rfl
      have point : ¬ Char.isDigit '.' := by decide
      rw [Number.decimalValue, stop, List.filter_append, List.filter_cons_of_neg point,
        List.filter_eq_self.mpr all, List.filter_eq_self.mpr all', value]
      simp

/-- A decimal looks like a literal. -/
theorem Written.numeral {v : ℚ} {text : List Char} (h : Written v text) :
    (∃ c ∈ text.head?, c.isDigit) ∧ ∀ c ∈ text, Token.isNumberPart c := by
  have part : ∀ c : Char, c.isDigit → Token.isNumberPart c := fun c digit => by
    simp [Token.isNumberPart, digit]
  cases h with
  | whole some_digits all =>
      obtain ⟨c, digits, rfl⟩ := List.exists_cons_of_ne_nil some_digits
      exact ⟨⟨c, rfl, all c List.mem_cons_self⟩, fun d mem => part d (all d mem)⟩
  | point some_digits all all' =>
      obtain ⟨c, front, rfl⟩ := List.exists_cons_of_ne_nil some_digits
      refine ⟨⟨c, rfl, all c List.mem_cons_self⟩, fun d mem => ?_⟩
      rcases List.mem_append.mp mem with mem | mem
      · exact part d (all d mem)
      · rcases List.mem_cons.mp mem with rfl | mem
        · rfl
        · exact part d (all' d mem)

theorem isDigit_of_mem_zeros {n : Nat} {c : Char} (mem : c ∈ List.replicate n '0') : c.isDigit := by
  rw [List.eq_of_mem_replicate mem]
  rfl

theorem written_positional {d : Decimal} (some_digits : d.digits ≠ [])
    (all : ∀ c ∈ d.digits, c.isDigit) : Written d.value d.positional.toList := by
  obtain ⟨digits, exponent⟩ := d
  have length_pos := List.length_pos_of_ne_nil some_digits
  simp only [Decimal.positional, Decimal.value, String.toList_ofList] at *
  split
  · rename_i nonneg
    obtain ⟨n, rfl⟩ := Int.eq_ofNat_of_zero_le nonneg
    refine .whole (by simp [some_digits]) ?_ ?_
    · intro c mem
      exact (List.mem_append.mp mem).elim (all c) isDigit_of_mem_zeros
    · rw [digitsValue_append, digitsValue_zeros]
      simp
  · rename_i negative
    obtain ⟨n, rfl⟩ := Int.exists_eq_neg_ofNat (by omega : exponent ≤ 0)
    split
    · -- The point stands inside the digits.
      rename_i inside
      set point := (digits.length + -(n : Int)).toNat with point_eq
      refine .point ?_ (fun c mem => all c (List.mem_of_mem_take mem))
        (fun c mem => all c (List.mem_of_mem_drop mem)) ?_
      · rw [← List.length_pos_iff, List.length_take]
        omega
      · have places : (digits.drop point).length = n := by
          rw [List.length_drop]
          omega
        rw [List.take_append_drop, places, zpow_neg, zpow_natCast, div_eq_mul_inv]
    · -- Zeros stand between the point and the digits.
      rename_i outside
      set zeros := (-(digits.length + -(n : Int))).toNat with zeros_eq
      have text : '0' :: '.' :: (List.replicate zeros '0' ++ digits) =
          ['0'] ++ '.' :: (List.replicate zeros '0' ++ digits) := rfl
      rw [text]
      refine .point (by simp) (by simp) ?_ ?_
      · intro c mem
        exact (List.mem_append.mp mem).elim isDigit_of_mem_zeros (all c)
      · have places : (List.replicate zeros '0' ++ digits).length = n := by
          rw [List.length_append, List.length_replicate]
          omega
        have front : ['0'] ++ List.replicate zeros '0' = List.replicate (zeros + 1) '0' := rfl
        rw [places, ← List.append_assoc, front, digitsValue_append, digitsValue_zeros, zpow_neg,
          zpow_natCast, div_eq_mul_inv, Nat.zero_mul, Nat.zero_add]

/-! ## Texts of numbers -/

theorem written_repr (n : Nat) : Written n (n.repr.toList ++ ['.', '0']) := by
  refine .point (by simp) (fun c mem => isDigit_of_mem_repr mem) (by simp) ?_
  rw [digitsValue_append, digitsValue_repr]
  have zero : digitsValue ['0'] = 0 := digitsValue_zeros 1
  simp [zero]

theorem written_shortest {m : Nat} {e : Int} (c : Canonical m e) :
    ∃ v, Rounds m e v ∧ Written v (shortest m e).positional.toList := by
  obtain ⟨n, k, found, rounds⟩ := shortest_rounds c
  have pos : 0 < n := by
    have := rounds.pos c.positive
    by_contra zero
    obtain rfl : n = 0 := by omega
    simp at this
  refine ⟨_, rounds, ?_⟩
  rw [found, ← Decimal.value_ofUnits]
  exact written_positional (Decimal.digits_ofUnits_ne_nil pos k) (Decimal.isDigit_ofUnits n k)

variable {x y : Float}

theorem treeText_zero (h : x.toModel.unpack = .zero .positive) :
    Written 0 (treeText x).toList := by
  have text : treeText x = "0.0" := by
    simp [treeText, whole?, plainText, h, signText]
  rw [text]
  exact_mod_cast written_repr 0

theorem treeText_infinity (h : x.toModel.unpack = .infinity .positive) : treeText x = "inf" := by
  simp [treeText, whole?, plainText, h, signText]

theorem four_quarters (e : Int) : 4 * quarter e = 2 ^ e := by
  have exponent : e = 2 + (e - 2) := by omega
  rw [quarter, exponent, zpow_add₀ (by norm_num)]
  norm_num

/-- A whole number is written out in full. -/
theorem treeText_whole {n : Nat} (pos : 0 < n) (h : whole? x = some (n : Int)) :
    (treeText x).toList = n.repr.toList ++ ['.', '0'] := by
  have nonzero : n ≠ 0 := by omega
  have text : toString (n : Int) = n.repr := rfl
  simp [treeText, h, nonzero, text]

theorem whole?_finite {m : Nat} {e : Int} {pos : 0 < m}
    (h : x.toModel.unpack = .finite .positive m e pos) :
    whole? x =
      if 0 ≤ e then some ((m * 2 ^ e.toNat : ℕ) : Int)
      else if m % 2 ^ (-e).toNat = 0 then some ((m / 2 ^ (-e).toNat : ℕ) : Int)
      else none := by
  rw [whole?, h]
  rfl

/-- The text of a finite number is a decimal that rounds to it. -/
theorem treeText_finite {m : Nat} {e : Int} {pos : 0 < m}
    (h : x.toModel.unpack = .finite .positive m e pos) :
    ∃ v, Rounds m e v ∧ Written v (treeText x).toList := by
  have exact_value : ((4 * m : ℕ) : ℚ) * quarter e = m * 2 ^ e := by
    rw [← four_quarters, Nat.mul_comm, Nat.cast_mul, mul_assoc, Nat.cast_ofNat]
  have whole {n : Nat} (found : whole? x = some (n : Int)) (n_pos : 0 < n)
      (value : (n : ℚ) = m * 2 ^ e) : ∃ v, Rounds m e v ∧ Written v (treeText x).toList := by
    refine ⟨_, rounds_self pos, ?_⟩
    rw [treeText_whole n_pos found, exact_value, ← value]
    exact written_repr n
  have found := whole?_finite h
  split at found
  · rename_i nonneg
    refine whole found (Nat.mul_pos pos (Nat.pow_pos (by decide))) ?_
    obtain ⟨n, rfl⟩ := Int.eq_ofNat_of_zero_le nonneg
    simp
  · rename_i negative
    obtain ⟨n, rfl⟩ := Int.exists_eq_neg_ofNat (by omega : e ≤ 0)
    rw [Int.neg_neg, Int.toNat_natCast] at found
    split at found
    · rename_i divides
      obtain ⟨a, rfl⟩ := Nat.dvd_of_mod_eq_zero divides
      have power : 0 < 2 ^ n := Nat.pow_pos (by decide)
      rw [Nat.mul_div_cancel_left a power] at found
      refine whole found (Nat.pos_of_mul_pos_left pos) ?_
      rw [zpow_neg, zpow_natCast]
      push_cast
      field_simp
    · have text : (treeText x).toList = (shortest m (-n)).positional.toList := by
        simp [treeText, found, plainText, h, signText]
      rw [text]
      exact written_shortest (canonical_of_unpack h)

/-- The rationals that stand for a number: zero alone, or those that round to the number. -/
inductive Denotes : ℚ → Float → Prop where
  | zero {x : Float} : x.toModel.unpack = .zero .positive → Denotes 0 x
  | finite {x : Float} {m : Nat} {e : Int} {pos : 0 < m} {v : ℚ} :
      x.toModel.unpack = .finite .positive m e pos → Rounds m e v → Denotes v x

theorem Denotes.unique {v : ℚ} (hx : Denotes v x) (hy : Denotes v y) : x = y := by
  cases hx with
  | zero hx =>
      cases hy with
      | zero hy => exact eq_of_unpack (hx.trans hy.symm)
      | @finite _ _ _ pos _ _ rounds => exact (lt_irrefl _ (rounds.pos pos)).elim
  | @finite _ _ _ pos _ hx rounds =>
      cases hy with
      | zero => exact (lt_irrefl _ (rounds.pos pos)).elim
      | finite hy rounds' =>
          obtain ⟨rfl, rfl⟩ := rounds_unique (canonical_of_unpack hx) (canonical_of_unpack hy)
            rounds rounds'
          exact eq_of_unpack (hx.trans hy.symm)

theorem written_treeText (h : Unsigned x.toModel.unpack) (finite : x.isInf = false) :
    ∃ v, Denotes v x ∧ Written v (treeText x).toList := by
  cases unpacked : x.toModel.unpack with
  | zero sign =>
      rw [unpacked] at h
      cases h
      exact ⟨0, .zero unpacked, treeText_zero unpacked⟩
  | finite sign m e pos =>
      rw [unpacked] at h
      cases h
      obtain ⟨v, rounds, written⟩ := treeText_finite unpacked
      exact ⟨v, .finite unpacked rounds, written⟩
  | infinity sign =>
      change x.toModel.unpack.isInf = false at finite
      rw [unpacked] at finite
      cases finite
  | notANumber =>
      rw [unpacked] at h
      cases h

/-- A number that is finite and not negative is shown like a literal. -/
theorem treeText_numeral (h : Unsigned x.toModel.unpack) (finite : x.isInf = false) :
    (∃ c ∈ (treeText x).toList.head?, c.isDigit) ∧
      ∀ c ∈ (treeText x).toList, Token.isNumberPart c := by
  obtain ⟨v, -, written⟩ := written_treeText h finite
  exact written.numeral

/-- Numbers that are finite and not negative are shown differently. -/
theorem treeText_injective (hx : Unsigned x.toModel.unpack) (hy : Unsigned y.toModel.unpack)
    (finite : x.isInf = false) (finite' : y.isInf = false) (same : treeText x = treeText y) :
    x = y := by
  obtain ⟨v, denotes, written⟩ := written_treeText hx finite
  obtain ⟨v', denotes', written'⟩ := written_treeText hy finite'
  obtain rfl : v = v' := by
    rw [← written.decimalValue, ← written'.decimalValue, same]
  exact denotes.unique denotes'

end Scriptlet.Number
