import Scriptlet.Proofs.Parse.Reading
import Scriptlet.Proofs.Parse.Unquoting
import Scriptlet.Proofs.Syntax.Legible

/-! # Legible tokens

What the tokens of a text let the parser write into trees: names that are words, numbers without a
minus, and strings that end where they are closed. Only the last string of a text can be open. -/

namespace Scriptlet

namespace Token

/-- What is legible of a token; `last` tells whether none follows it. -/
def Legible (t : Token) (last : Bool) : Prop :=
  match t.kind with
  | .identifier => IsName t.lexeme
  | .number => ∀ x, Number.ofDecimal? t.lexeme = some x → Number.Unsigned x.toModel.unpack
  | .string => (Form.quoted (String.ofList (Parse.unquote t.lexeme.toList))).Legible last
  | _ => True

def LegibleEach : List Token → Prop
  | [] => True
  | t :: ts => t.Legible ts.isEmpty ∧ LegibleEach ts

/-- Tokens of the other kinds write nothing. -/
theorem legible_of_kind {t : Token} {last : Bool} (h : t.kind ∉ [.identifier, .number, .string]) :
    t.Legible last := by
  unfold Legible
  split
  · rename_i kind
    exact (h (by simp [kind])).elim
  · rename_i kind
    exact (h (by simp [kind])).elim
  · rename_i kind
    exact (h (by simp [kind])).elim
  · trivial

/-! ## Names -/

theorem not_break_of_wordPart {c : Char} (h : isWordPart c) : c ∉ Form.breaks :=
  Form.not_mem_breaks (by decide +kernel) h

theorem isWordPart_of_wordStart {c : Char} (h : isWordStart c) : isWordPart c := by
  simp only [isWordStart, Bool.or_eq_true] at h
  simp only [isWordPart, Bool.or_eq_true]
  exact h.imp .inl id

theorem not_digit_of_wordStart {c : Char} (h : isWordStart c) : c.isDigit = false := by
  rw [Bool.eq_false_iff]
  intro digit
  simp only [isWordStart, Text.isAlphabetic_of_digit digit, Bool.false_or, decide_eq_true_eq] at h
  subst h
  cases digit

theorem isName_of_word {c : Char} {cs : List Char} (start : isWordStart c)
    (all : ∀ d ∈ cs, isWordPart d) (free : ∀ kind, (String.ofList (c :: cs), kind) ∉ keywords) :
    IsName (String.ofList (c :: cs)) := by
  refine ⟨⟨?_, ?_⟩, ?_, ?_⟩
  · simp [String.ofList_eq_empty_iff]
  · rw [String.toList_ofList]
    intro d mem
    rcases List.mem_cons.mp mem with rfl | mem
    · exact not_break_of_wordPart (isWordPart_of_wordStart start)
    · exact not_break_of_wordPart (all d mem)
  · have table : ∀ word ∈ reserved, ∃ entry ∈ keywords, entry.1 = word := by decide
    intro mem
    obtain ⟨entry, listed, same⟩ := table _ mem
    exact free entry.2 (same ▸ listed)
  · rw [String.toList_ofList]
    rintro d ⟨⟩
    exact not_digit_of_wordStart start

/-- A character that starts nothing else. -/
theorem isName_of_char {c : Char} (plain : c ∉ Form.breaks) (digit : c.isDigit = false) :
    IsName (String.ofList [c]) := by
  refine ⟨⟨?_, ?_⟩, ?_, ?_⟩
  · simp
  · simpa using plain
  · have table : ∀ word ∈ reserved, word.toList.length ≠ 1 := by decide
    intro mem
    exact table _ mem (by simp)
  · rw [String.toList_ofList]
    rintro d ⟨⟩
    exact digit

theorem isName_of_stray {c : Char} (h : isStray c) : IsName (String.ofList [c]) := by
  have digit : c.isDigit = false := by simp_all [isStray]
  exact isName_of_char (Form.not_mem_breaks (by decide +kernel) h) digit

/-! ## Tokens of a text -/

theorem legible_quoted {cs : List Char} (h : Unclosed cs) (last : Bool) :
    (Form.quoted (String.ofList cs)).Legible last := by
  refine .inl ?_
  rwa [String.toList_ofList]

/-- A token is legible where it stands. -/
theorem Munch.legible {kind : TokenKind} {lexeme rest : List Char} (h : Munch kind lexeme rest)
    (pos : Position) {last : Bool} (ends : rest = [] → last = true) :
    (⟨kind, String.ofList lexeme, pos⟩ : Token).Legible last := by
  cases h with
  | delimiter mem =>
      have table : ∀ entry ∈ delimiters, entry.2 ∉ [.identifier, .number, .string] := by decide
      exact legible_of_kind (table _ mem)
  | compound mem =>
      have table : ∀ entry ∈ compounds, entry.2.2 ∉ [.identifier, .number, .string] := by decide
      exact legible_of_kind (table _ mem)
  | @simple c d kind rest mem =>
      have table : ∀ entry ∈ simples, entry.2.2 ∉ [.identifier, .number, .string] ∨
          entry.2.2 = .identifier ∧ entry.1 ∉ Form.breaks ∧ entry.1.isDigit = false := by
        decide
      rcases table _ mem with other | ⟨name, plain, digit⟩
      · exact legible_of_kind other
      · obtain rfl : kind = .identifier := name
        exact isName_of_char plain digit
  | number digit => exact fun x read => Number.unsigned_ofDecimal digit read
  | keyword _ _ _ mem =>
      have table : ∀ entry ∈ keywords, entry.2 ∉ [.identifier, .number, .string] := by decide
      exact legible_of_kind (table _ mem)
  | name start all _ free => exact isName_of_word start all free
  | closed inner =>
      simp only [Legible, String.toList_ofList, Parse.unquote_closed inner]
      exact legible_quoted inner last
  | unclosed inner =>
      simp only [Legible, String.toList_ofList, Parse.unquote_unclosed inner]
      exact legible_quoted inner last
  | escaping inner =>
      simp only [Legible, String.toList_ofList, Parse.unquote_escaping]
      exact .inr ⟨ends rfl, _, inner, String.toList_ofList⟩
  | stray stray => exact isName_of_stray stray

/-- The tokens of a text are legible, up to the mark of its end. -/
theorem legibleEach_scanFrom (pos : Position) (text : List Char) :
    LegibleEach (Script.body (scanFrom pos text)) := by
  induction text using induction_on_pieces generalizing pos with
  | nil =>
      rw [scanFrom]
      trivial
  | gap gap rest isGap ih =>
      rw [scanFrom_gap isGap]
      exact ih _
  | token kind lexeme rest munch ih =>
      rw [scanFrom_munch munch, Script.body, List.takeWhile_cons_of_pos (by simp [munch.kind_ne])]
      refine ⟨munch.legible pos ?_, ih _⟩
      rintro rfl
      rw [scanFrom]
      rfl

end Token

end Scriptlet
