import Mathlib.Data.List.DropRight
import Scriptlet.Text.Blank

/-! # Trimming a text

Blanks at the ends of a text do not matter to the trimmed text, and a text that neither starts nor
ends with a blank is trimmed already. -/

namespace Scriptlet.Text

variable {p : Char → Bool} {cs blanks : List Char}

theorem dropWhile_eq_self (first : ∀ c ∈ cs.head?, p c = false) : cs.dropWhile p = cs := by
  cases cs with
  | nil => rfl
  | cons c cs => simp [first c rfl]

theorem dropEndWhile_eq_self (last : ∀ c ∈ cs.getLast?, p c = false) : dropEndWhile p cs = cs := by
  rw [dropEndWhile, dropWhile_eq_self, List.reverse_reverse]
  rwa [List.head?_reverse]

theorem dropEndWhile_append (all : ∀ c ∈ blanks, p c) (cs : List Char) :
    dropEndWhile p (cs ++ blanks) = dropEndWhile p cs := by
  rw [dropEndWhile, List.reverse_append, List.dropWhile_append_of_pos, dropEndWhile]
  exact fun c mem => all c (List.mem_reverse.mp mem)

/-- Nothing is taken off in front of a character that stays. -/
theorem dropEndWhile_append_cons {c : Char} (stop : p c = false) (front back : List Char) :
    dropEndWhile p (front ++ c :: back) = front ++ c :: dropEndWhile p back := by
  have turned : (front ++ c :: back).reverse = back.reverse ++ c :: front.reverse := by simp
  rw [dropEndWhile, turned, List.dropWhile_append, dropEndWhile]
  split
  · rename_i empty
    rw [List.isEmpty_iff.mp empty, List.dropWhile_cons_of_neg (by simp [stop])]
    simp
  · simp

/-- What is taken off the end has the property throughout. -/
theorem exists_dropEndWhile_append (p : Char → Bool) (cs : List Char) :
    ∃ dropped, (∀ c ∈ dropped, p c) ∧ cs = dropEndWhile p cs ++ dropped := by
  refine ⟨(cs.reverse.takeWhile p).reverse, fun c mem => ?_, ?_⟩
  · exact List.all_eq_true.mp List.all_takeWhile c (List.mem_reverse.mp mem)
  · rw [dropEndWhile, ← List.reverse_append, List.takeWhile_append_dropWhile, List.reverse_reverse]

theorem trim_blanks_append (all : ∀ c ∈ blanks, isBlank c) (cs : List Char) :
    trim (blanks ++ cs) = trim cs := by
  rw [trim, List.dropWhile_append_of_pos all, trim]

theorem trim_append_blanks (all : ∀ c ∈ blanks, isBlank c) (cs : List Char) :
    trim (cs ++ blanks) = trim cs := by
  have none_left : blanks.dropWhile isBlank = [] := List.dropWhile_eq_nil_iff.mpr all
  rw [trim, trim, List.dropWhile_append]
  split
  · rename_i empty
    rw [List.isEmpty_iff.mp empty, none_left]
  · rw [dropEndWhile_append all]

theorem trim_eq_self (first : ∀ c ∈ cs.head?, isBlank c = false)
    (last : ∀ c ∈ cs.getLast?, isBlank c = false) : trim cs = cs := by
  rw [trim, dropWhile_eq_self first, dropEndWhile_eq_self last]

/-- A text is blanks, the trimmed text, and blanks. -/
theorem exists_trim (cs : List Char) :
    ∃ before after, (∀ c ∈ before, isBlank c) ∧ (∀ c ∈ after, isBlank c) ∧
      cs = before ++ (trim cs ++ after) := by
  obtain ⟨after, all, rest⟩ := exists_dropEndWhile_append isBlank (cs.dropWhile isBlank)
  refine ⟨cs.takeWhile isBlank, after, List.all_eq_true.mp List.all_takeWhile, all, ?_⟩
  rw [trim, ← rest, List.takeWhile_append_dropWhile]

end Scriptlet.Text
