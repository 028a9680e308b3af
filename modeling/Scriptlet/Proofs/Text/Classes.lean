import Scriptlet.Text.Alphabetic
import Scriptlet.Text.Blank
import Scriptlet.Text.Numeric

/-! # Classes of characters

The classes are listed as ranges of code points. Blanks belong to no other class, and the digits of
numbers are no letters. -/

namespace Scriptlet.Text

/-- A member of listed ranges lies in one of them. -/
theorem Ranges.exists_of_member {ranges : Ranges} {n : Nat} (h : ranges.member n) :
    ∃ r ∈ ranges, r.1 ≤ n ∧ n ≤ r.2 := by
  induction ranges with
  | nil => cases h
  | cons r ranges ih =>
      obtain ⟨first, last⟩ := r
      rw [Ranges.member] at h
      split at h
      · cases h
      · split at h
        · exact ⟨(first, last), List.mem_cons_self, by omega, by omega⟩
        · obtain ⟨r, mem, within⟩ := ih h
          exact ⟨r, List.mem_cons_of_mem _ mem, within⟩

/-- Whether no range of the one list meets a range of the other. -/
def Ranges.apart (ranges others : Ranges) : Bool :=
  ranges.all fun r => others.all fun s => decide (r.2 < s.1) || decide (s.2 < r.1)

theorem Ranges.member_eq_false {ranges others : Ranges} {n : Nat} (apart : ranges.apart others)
    (h : ranges.member n) : others.member n = false := by
  rw [Bool.eq_false_iff]
  intro h'
  obtain ⟨r, mem, _, _⟩ := exists_of_member h
  obtain ⟨s, mem', _, _⟩ := exists_of_member h'
  simp only [Ranges.apart, List.all_eq_true, Bool.or_eq_true, decide_eq_true_eq] at apart
  rcases apart r mem s mem' with before | before <;> omega

theorem isAlphabetic_of_blank {c : Char} (h : isBlank c) : isAlphabetic c = false :=
  Ranges.member_eq_false (by decide +kernel) h

theorem isNumeric_of_blank {c : Char} (h : isBlank c) : isNumeric c = false :=
  Ranges.member_eq_false (by decide +kernel) h

/-- The digits of numbers. -/
def digitRanges : Ranges := [(0x30, 0x39)]

theorem member_digitRanges {c : Char} (h : c.isDigit) : digitRanges.member c.toNat := by
  have bounds : 0x30 ≤ c.toNat ∧ c.toNat ≤ 0x39 := by
    simpa [Char.isDigit, UInt32.le_iff_toNat_le] using h
  simp only [digitRanges, Ranges.member]
  rw [if_neg (by omega), if_pos bounds.2]

theorem isAlphabetic_of_digit {c : Char} (h : c.isDigit) : isAlphabetic c = false :=
  Ranges.member_eq_false (by decide +kernel) (member_digitRanges h)

theorem isBlank_of_digit {c : Char} (h : c.isDigit) : isBlank c = false :=
  Ranges.member_eq_false (by decide +kernel) (member_digitRanges h)

end Scriptlet.Text
