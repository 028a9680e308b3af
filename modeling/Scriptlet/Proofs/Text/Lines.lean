import Mathlib.Data.List.DropRight
import Scriptlet.Text.Blank
import Scriptlet.Text.Lines
import Scriptlet.Text.Utf8

/-! # Lines of a text and of its bytes

Cutting a list after each line break gives the pieces between the line breaks. It does not matter
whether a text is cut, or its bytes in UTF-8. -/

namespace Scriptlet.Text

variable {α : Type}

/-- What is cut after each `a` are the pieces between, each with the `a` behind it. The last piece
has none, and is left out if it is empty. -/
theorem cutAfter_eq_splitOn [DecidableEq α] (a : α) (as : List α) :
    cutAfter (· = a) as = (as.splitOn a).dropLast.map (· ++ [a]) ++
      (as.splitOn a).getLast?.toList.filter (· ≠ []) := by
  induction as with
  | nil => simp [cutAfter]
  | cons b as ih =>
      obtain ⟨piece, pieces, split⟩ := List.exists_cons_of_ne_nil (List.splitOn_ne_nil a as)
      rw [split] at ih
      rw [cutAfter, ih, List.splitOn_cons_eq_if_modifyHead, split]
      by_cases same : b = a
      · simp [same]
      · cases pieces with
        | nil => cases piece <;> simp [same]
        | cons next pieces => simp [same]

/-- The pieces between have no `a`. -/
theorem notMem_of_mem_splitOn [DecidableEq α] {a : α} {as piece : List α}
    (h : piece ∈ as.splitOn a) : a ∉ piece := by
  induction as generalizing piece with
  | nil =>
      obtain rfl : piece = [] := by simpa using h
      exact List.not_mem_nil
  | cons b as ih =>
      obtain ⟨first, pieces, split⟩ := List.exists_cons_of_ne_nil (List.splitOn_ne_nil a as)
      rw [split] at ih
      rw [List.splitOn_cons_eq_if_modifyHead, split] at h
      by_cases same : b = a
      · have before : piece = [] ∨ piece ∈ first :: pieces := by simpa [same] using h
        rcases before with rfl | later
        · exact List.not_mem_nil
        · exact ih later
      · have before : piece = b :: first ∨ piece ∈ pieces := by simpa [same] using h
        rcases before with rfl | later
        · have notMem : a ∉ first := ih List.mem_cons_self
          simp [notMem, Ne.symm same]
        · exact ih (List.mem_cons_of_mem first later)

/-- The pieces between, but for an empty one at the end. -/
def pieces [DecidableEq α] (a : α) (as : List α) : List (List α) :=
  let all := as.splitOn a
  if all.getLast? = some [] then all.dropLast else all

/-- For what makes no difference between a piece and the piece with the `a` behind it, cutting after
each `a` is as good as splitting there. -/
theorem map_cutAfter {β : Type} [DecidableEq α] {a : α} {f g : List α → β}
    (closed : ∀ piece, a ∉ piece → f (piece ++ [a]) = g piece)
    (unclosed : ∀ piece, a ∉ piece → f piece = g piece) (as : List α) :
    (cutAfter (· = a) as).map f = (pieces a as).map g := by
  have clear : ∀ piece ∈ as.splitOn a, a ∉ piece := fun piece => notMem_of_mem_splitOn
  obtain ⟨whole, last, split⟩ : ∃ whole last, as.splitOn a = whole ++ [last] :=
    ⟨_, _, (List.dropLast_append_getLast (List.splitOn_ne_nil a as)).symm⟩
  rw [cutAfter_eq_splitOn, pieces]
  rw [split] at clear ⊢
  have ended : (whole.map (· ++ [a])).map f = whole.map g := by
    rw [List.map_map]
    refine List.map_congr_left fun piece mem => closed piece ?_
    exact clear piece (List.mem_append_left [last] mem)
  have rest : f last = g last := unclosed last (clear last (by simp))
  rw [List.dropLast_concat, List.getLast?_concat, List.map_append, ended]
  by_cases empty : last = []
  · simp [empty]
  · simp [empty, rest]

/-- Cutting begins with the first piece, which is not empty unless there is nothing to cut. -/
theorem firstPiece_cons (ends : α → Bool) (a : α) (as : List α) :
    ∃ piece rest, firstPiece ends (a :: as) = (a :: piece, rest) ∧
      cutAfter ends (a :: as) = (a :: piece) :: cutAfter ends rest := by
  induction as generalizing a with
  | nil =>
      refine ⟨[], [], ?_⟩
      cases ends a <;> simp [firstPiece, cutAfter]
  | cons b as ih =>
      obtain ⟨piece, rest, first, cut⟩ := ih b
      by_cases ended : ends a
      · exact ⟨[], b :: as, by rw [firstPiece, if_pos ended], by rw [cutAfter, if_pos ended]⟩
      · refine ⟨b :: piece, rest, ?_, ?_⟩
        · rw [firstPiece, if_neg ended, first]
        · rw [cutAfter, if_neg ended, cut]

/-- What ends nothing stays together. -/
theorem cutAfter_append {ends : α → Bool} {front : List α} (nonempty : front ≠ [])
    (through : ∀ a ∈ front, ends a = false) (as : List α) :
    cutAfter ends (front ++ as) =
      (front ++ (cutAfter ends as).headD []) :: (cutAfter ends as).tail := by
  induction front with
  | nil => contradiction
  | cons a front ih =>
      have passed : ends a = false := through a List.mem_cons_self
      cases front with
      | nil => cases cut : cutAfter ends as <;> simp [cutAfter, passed, cut]
      | cons b front =>
          have rest := ih (List.cons_ne_nil b front) fun c mem =>
            through c (List.mem_cons_of_mem a mem)
          rw [List.cons_append, cutAfter, rest]
          simp [passed]

theorem dropEndWhile_concat (p : Char → Bool) (cs : List Char) (c : Char) :
    dropEndWhile p (cs ++ [c]) = if p c then dropEndWhile p cs else cs ++ [c] :=
  List.rdropWhile_concat p cs c

/-! ## Bytes -/

theorem toList_loop_eq (bytes : ByteArray) (i : Nat) (front : List UInt8) :
    ByteArray.toList.loop bytes i front = front.reverse ++ bytes.data.toList.drop i := by
  induction i, front using ByteArray.toList.loop.induct bytes with
  | case1 i front inside ih =>
      have bound : i < bytes.data.toList.length := inside
      have byte : bytes.get! i = bytes.data.toList[i] := getElem!_pos bytes.data i inside
      rw [ByteArray.toList.loop, if_pos inside, ih, List.drop_eq_getElem_cons bound, byte]
      simp
  | case2 i front outside =>
      have bound : bytes.data.toList.length ≤ i := Nat.le_of_not_lt outside
      rw [ByteArray.toList.loop, if_neg outside, List.drop_eq_nil_of_le bound, List.append_nil]

def encode (cs : List Char) : List UInt8 :=
  cs.flatMap String.utf8EncodeChar

theorem toByteArray_ofList_eq (cs : List Char) :
    (String.ofList cs).toByteArray = ⟨(encode cs).toArray⟩ := by
  apply ByteArray.ext
  simp [encode, List.utf8Encode]

theorem toList_toUTF8 (s : String) : s.toUTF8.toList = encode s.toList := by
  have bytes : s.toUTF8 = ⟨(encode s.toList).toArray⟩ := by
    rw [← toByteArray_ofList_eq, String.ofList_toList, String.toUTF8_eq_toByteArray]
  rw [ByteArray.toList, toList_loop_eq, bytes]
  simp

theorem decode_toUTF8 (s : String) : decode s.toUTF8 = .ok s := by
  have valid : s.toUTF8.IsValidUTF8 := s.isValidUTF8
  rw [decode, String.fromUTF8?, dif_pos valid]
  rfl

theorem decode_encode (cs : List Char) :
    decode ⟨(encode cs).toArray⟩ = .ok (String.ofList cs) := by
  rw [← toByteArray_ofList_eq, ← String.toUTF8_eq_toByteArray, decode_toUTF8]

theorem ofNat_ne_newline {n : Nat} (byte : n < 256) (other : n ≠ 10) : UInt8.ofNat n ≠ 0x0A := by
  intro same
  have value := congrArg UInt8.toNat same
  rw [UInt8.toNat_ofNat_of_lt' byte] at value
  exact other value

/-- Only the line break has its byte. -/
theorem ne_newline_of_mem_utf8EncodeChar {c : Char} (other : c ≠ '\n') :
    ∀ byte ∈ String.utf8EncodeChar c, byte ≠ 0x0A := by
  fun_cases String.utf8EncodeChar c with
  | case1 value ascii =>
      have code : value ≠ 10 := fun same => other (Char.ext (UInt32.toNat.inj same))
      simpa using ofNat_ne_newline (by omega) code
  | case2 | case3 | case4 =>
      -- Each byte of a longer character is at least 128.
      simp only [List.forall_mem_cons, List.not_mem_nil, IsEmpty.forall_iff, implies_true, and_true]
      and_intros <;> exact ofNat_ne_newline (by omega) (by omega)

theorem cutAfter_encode (cs : List Char) :
    cutAfter (· = 0x0A) (encode cs) = (cutAfter (· = '\n') cs).map encode := by
  induction cs with
  | nil => rfl
  | cons c cs ih =>
      by_cases newline : c = '\n'
      · subst newline
        have bytes : encode ('\n' :: cs) = 0x0A :: encode cs := rfl
        rw [bytes, cutAfter, cutAfter, if_pos (decide_eq_true rfl), if_pos (decide_eq_true rfl), ih]
        rfl
      · have through : ∀ byte ∈ String.utf8EncodeChar c, decide (byte = 0x0A) = false :=
          fun byte mem => decide_eq_false (ne_newline_of_mem_utf8EncodeChar newline byte mem)
        have front : encode (c :: cs) = String.utf8EncodeChar c ++ encode cs := List.flatMap_cons
        have kept : cutAfter (· = '\n') (c :: cs) =
            (c :: (cutAfter (· = '\n') cs).headD []) :: (cutAfter (· = '\n') cs).tail :=
          cutAfter_append (List.cons_ne_nil c []) (by simp [newline]) cs
        rw [front, cutAfter_append String.utf8EncodeChar_ne_nil through, ih, kept]
        cases cutAfter (· = '\n') cs <;> simp [encode]

end Scriptlet.Text
