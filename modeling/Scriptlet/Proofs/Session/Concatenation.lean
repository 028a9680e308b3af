import Scriptlet.Proofs.Parse.Concatenation
import Scriptlet.Proofs.Parse.Likeness
import Scriptlet.Proofs.Syntax.Relocation
import Scriptlet.Proofs.Token.Below

/-! # A script below another

Neither the scanner nor the parser carries anything over from a script that is read without a fault,
closes its blocks and ends with a semicolon or a brace. A script below it is read as if it stood
alone, so many lines further down. -/

namespace Scriptlet

/-! ## Tokens -/

namespace Token

/-- The mark of the end is the last token, and only that. -/
theorem exists_scanFrom_eq (pos : Position) (text : List Char) :
    ∃ ts last, scanFrom pos text = ts ++ [last] ∧ last.kind = .endOfInput ∧
      ∀ t ∈ ts, t.kind ≠ .endOfInput := by
  induction text using induction_on_pieces generalizing pos with
  | nil =>
      refine ⟨[], ⟨.endOfInput, "", pos⟩, ?_, rfl, by simp⟩
      rw [scanFrom]
      rfl
  | gap gap rest isGap ih =>
      rw [scanFrom_gap isGap]
      exact ih _
  | token kind lexeme rest munch ih =>
      obtain ⟨ts, last, whole, ends, endless⟩ := ih (pos.advance lexeme)
      rw [scanFrom_munch munch, whole]
      exact ⟨_ :: ts, last, rfl, ends, List.forall_mem_cons.mpr ⟨munch.kind_ne, endless⟩⟩

end Token

namespace Script

open Parse Token

theorem body_scanFrom (pos : Position) (text : List Char) :
    body (scanFrom pos text) = (scanFrom pos text).dropLast := by
  obtain ⟨ts, last, whole, ends, endless⟩ := exists_scanFrom_eq pos text
  rw [whole, body_append_end endless ends, List.dropLast_concat]

/-! ## Programs -/

theorem relocated_tokens (f : Position → Position) (ts : List Token) :
    (Likeness.relocated f).Tokens ts (ts.map (relocate f)) :=
  List.forall₂_map_right_iff.mpr (List.forall₂_same.mpr fun _ _ => ⟨rfl⟩)

theorem read?_topLevel {ts : List Token} {program : Program} :
    (topLevel ts).read? = some (program, []) ↔
      (topLevel ts).log = [] ∧ (topLevel ts).items = program := by
  rw [Sequence.read?, topLevel_rest]
  simp

/-- Tokens at other places are read to the program with its places changed. -/
theorem read?_topLevel_relocate (f : Position → Position) {ts : List Token} {program : Program}
    (read : (topLevel ts).read? = some (program, [])) :
    (topLevel (ts.map (relocate f))).read? = some (program.relocate f, []) := by
  have like := alike_topLevel (relocated_tokens f ts)
  obtain ⟨clean, rfl⟩ := read?_topLevel.mp read
  refine read?_topLevel.mpr ⟨?_, forall₂_eq_map.mp like.items⟩
  exact List.forall₂_nil_left_iff.mp (clean ▸ like.log)

theorem not_else_of_read? {ts : List Token} {program : Program}
    (read : (topLevel ts).read? = some (program, [])) : startsWith .kwElse ts = false := by
  cases ts with
  | nil => rfl
  | cons t ts =>
      rw [topLevel, read?_sequence_cons, if_neg Bool.false_ne_true] at read
      obtain ⟨s, mid, -, -, first, -⟩ := read
      obtain ⟨t', found, -, other⟩ := (statement_sound first).starts
      obtain rfl : t = t' := by simpa using found
      simp [startsWith, other]

/-- The tokens of a script below another one, up to the mark of the end. -/
theorem body_append_line (a b : String) (closing : Closing (body (scan a))) :
    body (scan (a ++ "\n" ++ b)) =
      body (scan a) ++ (body (scan b)).map (relocate (.down (1 + a.toList.count '\n'))) := by
  have text : (a ++ "\n" ++ b).toList = a.toList ++ '\n' :: b.toList := by
    rw [String.toList_append, String.toList_append, List.append_assoc]
    rfl
  simp only [scan, body_scanFrom, text] at closing ⊢
  have closed : ∀ t ∈ (scanFrom .start a.toList).dropLast.getLast?, t.kind ≠ .string := by
    intro t last string
    rcases closing t last with kind | kind <;> simp [string] at kind
  have more : (scanFrom .start b.toList).map (relocate (.down (1 + a.toList.count '\n'))) ≠ [] :=
    fun none_left => scanFrom_ne_nil .start b.toList (List.map_eq_nil_iff.mp none_left)
  rw [scanFrom_line .start a.toList b.toList closed, Position.advance_line, scanFrom_down,
    List.dropLast_append_of_ne_nil more, List.map_dropLast]

theorem depth_body (source : String) : depth (body (scan source)) = depth (scan source) := by
  obtain ⟨ts, last, whole, ends, endless⟩ := exists_scanFrom_eq .start source.toList
  have mark : depth [last] = 0 := depth_of_plain (by simp [ends]) (by simp [ends])
  rw [scan, whole, body_append_end endless ends, depth_append, mark, Int.add_zero]

/-- A script that is read without a fault, opens and closes as many braces and ends with a semicolon
or a brace, and one that is read without a fault below it: their statements are those of the two
scripts, the second ones further down by the lines of the first. -/
theorem source_append (a b : String) (clean : (ofSource a).diagnostics = [])
    (clean' : (ofSource b).diagnostics = [])
    (balanced : (scan a).countP (·.kind = .leftBrace) = (scan a).countP (·.kind = .rightBrace))
    (closing : ∀ t ∈ (scan a).dropLast.getLast?, t.kind = .semicolon ∨ t.kind = .rightBrace) :
    (ofSource (a ++ "\n" ++ b)).diagnostics = [] ∧
      (ofSource (a ++ "\n" ++ b)).program =
        (ofSource a).program ++
          (ofSource b).program.relocate (.down (1 + a.toList.count '\n')) := by
  have first := (read?_topLevel_body (scan a)).mpr ⟨clean, rfl⟩
  have second := (read?_topLevel_body (scan b)).mpr ⟨clean', rfl⟩
  have below := read?_topLevel_relocate (.down (1 + a.toList.count '\n')) second
  have closing : Closing (body (scan a)) := by
    rw [scan, body_scanFrom]
    exact closing
  have closed : depth (body (scan a)) = 0 := by
    rw [depth_body, depth, balanced, Int.sub_self]
  have whole := topLevel_append closing closed (not_else_of_read? below) first below
  rw [← body_append_line a b closing] at whole
  exact (read?_topLevel_body _).mp whole

/-- A branch without an alternative whose block ends with an unfinished return, a comment behind it,
and a negation below. -/
theorem source_append_branch :
    let a := "var x = 1;\nif (x) \x7b return x \x7d // done"
    let b := "-x;"
    (ofSource a).diagnostics = [] ∧ (ofSource b).diagnostics = [] ∧
      (ofSource (a ++ "\n" ++ b)).diagnostics = [] ∧
      (ofSource (a ++ "\n" ++ b)).program =
        (ofSource a).program ++ (ofSource b).program.relocate (.down 2) := by
  intro a b
  have clean : (ofSource a).diagnostics = [] := by decide +kernel
  have clean' : (ofSource b).diagnostics = [] := by decide +kernel
  have whole := source_append a b clean clean' (by decide +kernel) (by decide +kernel)
  have lines : a.toList.count '\n' = 1 := by decide
  rw [lines] at whole
  exact ⟨clean, clean', whole⟩

end Script

end Scriptlet
