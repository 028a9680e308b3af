import Scriptlet.Proofs.Token.Munch

/-! # Spacing between tokens

A token is recognised by its own characters. What follows it in the text has no part in that as long
as it does not go on with the token, which a blank never does. So the lexemes of a text can be set
apart in any way without becoming other tokens. -/

namespace Scriptlet.Token

/-! ## Separators -/

/-- Blanks, and comments with the line breaks that close them. -/
inductive Filler : List Char → Prop where
  | nil : Filler []
  | blank {c filler} : Text.isBlank c → Filler filler → Filler (c :: filler)
  | comment {body filler} : '\n' ∉ body → Filler filler →
      Filler ('/' :: '/' :: body ++ '\n' :: filler)

/-- A blank, then any blanks and closed comments. -/
inductive Separator : List Char → Prop where
  | intro {c filler} : Text.isBlank c → Filler filler → Separator (c :: filler)

/-- `Spaced lexemes text`: the text is the lexemes in their order with separators between them. -/
inductive Spaced : List String → List Char → Prop where
  | nil : Spaced [] []
  | last {lexeme} : Spaced [lexeme] lexeme.toList
  | more {lexeme next lexemes separator text} : Separator separator →
      Spaced (next :: lexemes) text →
      Spaced (lexeme :: next :: lexemes) (lexeme.toList ++ (separator ++ text))

theorem Filler.gap {filler : List Char} (h : Filler filler) (rest : List Char) :
    Gap filler rest := by
  induction h with
  | nil => exact .nil
  | blank isBlank _ ih => exact .blank isBlank ih
  | comment inner _ ih => exact .comment inner (by simp) (.blank (by decide) ih)

theorem Separator.gap {separator : List Char} (h : Separator separator) (rest : List Char) :
    Gap separator rest := by
  obtain ⟨blank, filler⟩ := h
  exact .blank blank (filler.gap rest)

/-! ## Tokens in front of other text -/

theorem isNumberPart_of_blank {c : Char} (h : Text.isBlank c) : isNumberPart c = false := by
  have digit : c.isDigit = false := by
    rw [Bool.eq_false_iff]
    intro digit
    rw [Text.isBlank_of_digit digit] at h
    cases h
  have dot : c ≠ '.' := by
    rintro rfl
    cases h
  simp [isNumberPart, digit, dot]

theorem isWordPart_of_blank {c : Char} (h : Text.isBlank c) : isWordPart c = false := by
  have underscore : c ≠ '_' := by
    rintro rfl
    cases h
  simp [isWordPart, Text.isAlphabetic_of_blank h, Text.isNumeric_of_blank h, underscore]

/-- A character that goes on with no token but a string. -/
def separates (c : Char) : Bool :=
  !isWordPart c && !isNumberPart c && !simples.any (·.2.1 = c)

theorem separates_of_blank {c : Char} (h : Text.isBlank c) : separates c := by
  have table : ∀ entry ∈ simples, Text.isBlank entry.2.1 = false := by decide
  have apart : ∀ entry ∈ simples, ¬ entry.2.1 = c := by
    rintro entry mem rfl
    rw [table entry mem] at h
    cases h
  simp only [separates, isWordPart_of_blank h, isNumberPart_of_blank h, Bool.not_false,
    Bool.true_and, Bool.not_eq_true', List.any_eq_false, decide_eq_true_eq]
  exact apart

/-- A token stays one in front of another text that starts alike or with a separating character.
Only a string that runs to the end of the text has to stay at the end. -/
theorem Munch.move {kind : TokenKind} {lexeme rest rest' : List Char} (h : Munch kind lexeme rest)
    (start : rest'.head? = rest.head? ∨ ∀ c ∈ rest'.head?, separates c)
    (ends : rest = [] → kind = .string → rest' = []) : Munch kind lexeme rest' := by
  have parts {c : Char} (h : separates c) : isWordPart c = false ∧ isNumberPart c = false ∧
      ∀ entry ∈ simples, entry.2.1 ≠ c := by
    simpa [separates, and_assoc] using h
  have stop {p : Char → Bool} (apart : ∀ c, separates c → p c = false)
      (before : ∀ c ∈ rest.head?, p c = false) : ∀ c ∈ rest'.head?, p c = false := by
    intro c first
    rcases start with same | separated
    · exact before c (same ▸ first)
    · exact apart c (separated c first)
  cases h with
  | delimiter mem => exact .delimiter mem
  | compound mem => exact .compound mem
  | @simple c d kind rest mem apart =>
      refine .simple mem fun first => ?_
      rcases start with same | separated
      · exact apart (same ▸ first)
      · exact (parts (separated d first)).2.2 _ mem rfl
  | number digit all before =>
      exact .number digit all (stop (fun _ h => (parts h).2.1) before)
  | keyword first all before mem =>
      exact .keyword first all (stop (fun _ h => (parts h).1) before) mem
  | name first all before none_there =>
      exact .name first all (stop (fun _ h => (parts h).1) before) none_there
  | closed inner => exact .closed inner
  | unclosed inner =>
      obtain rfl := ends rfl rfl
      exact .unclosed inner
  | escaping inner =>
      obtain rfl := ends rfl rfl
      exact .escaping inner
  | stray isStray => exact .stray isStray

theorem Munch.alone {kind : TokenKind} {lexeme rest : List Char} (h : Munch kind lexeme rest) :
    Munch kind lexeme [] :=
  h.move (.inr (by simp)) fun _ _ => rfl

theorem Munch.before_separator {kind : TokenKind} {lexeme rest separator : List Char}
    (h : Munch kind lexeme rest) (more : rest ≠ []) (isSeparator : Separator separator)
    (text : List Char) : Munch kind lexeme (separator ++ text) := by
  obtain @⟨c, filler, blank, -⟩ := isSeparator
  refine h.move (.inr fun d first => ?_) fun none_left => absurd none_left more
  obtain rfl : c = d := by simpa using first
  exact separates_of_blank blank

/-! ## Texts -/

theorem Cut.ne_nil {text : List Char} {piece : TokenKind × String}
    {pieces : List (TokenKind × String)} (h : Cut text (piece :: pieces)) : text ≠ [] := by
  cases h with
  | token _ munch _ =>
      obtain ⟨c, cs, rfl, -⟩ := munch.piece
      simp

/-- The same tokens with other separators are cut in the same way. -/
theorem Cut.spaced {text : List Char} {pieces : List (TokenKind × String)} (h : Cut text pieces)
    {other : List Char} (spaced : Spaced (pieces.map Prod.snd) other) : Cut other pieces := by
  induction h generalizing other with
  | last =>
      cases spaced
      exact .last .nil
  | @token gap lexeme rest kind pieces _ munch cut ih =>
      cases pieces with
      | nil =>
          cases spaced
          have single := Cut.token .nil munch.alone (.last .nil)
          rw [List.append_nil] at single
          rw [String.toList_ofList]
          exact single
      | cons piece pieces =>
          cases spaced with
          | @more _ _ _ separator text isSeparator spaced =>
              have token := munch.before_separator cut.ne_nil isSeparator text
              rw [String.toList_ofList]
              exact .token .nil token (.gap (isSeparator.gap text) (ih spaced))

theorem Cut.exists_munch {text : List Char} {pieces : List (TokenKind × String)}
    (h : Cut text pieces) : ∀ piece ∈ pieces, ∃ rest, Munch piece.1 piece.2.toList rest := by
  induction h with
  | last => simp
  | token _ munch _ ih =>
      exact List.forall_mem_cons.mpr ⟨⟨_, by rwa [String.toList_ofList]⟩, ih⟩

/-- The lexemes of a text, set apart by any separators, are scanned to the same tokens, and so is
each of them alone. -/
theorem spacing_keeps_tokens (source : String) :
    (∀ text : String, Spaced ((scan source).dropLast.map (·.lexeme)) text.toList →
      (scan text).map spelling = (scan source).map spelling) ∧
    ∀ t ∈ scan source, t.kind ≠ .endOfInput →
      (scan t.lexeme).map spelling = [t.spelling, (.endOfInput, "")] := by
  obtain ⟨pieces, spelled, cut⟩ := cut_scanFrom .start source.toList
  have spelled : (scan source).map spelling = pieces ++ [(.endOfInput, "")] := spelled
  refine ⟨fun text spaced => ?_, fun t mem notEnd => ?_⟩
  · have lexemes : (scan source).dropLast.map (·.lexeme) = pieces.map Prod.snd := by
      have front : (scan source).dropLast.map spelling = pieces := by
        rw [List.map_dropLast, spelled, List.dropLast_concat]
      rw [← front, List.map_map]
      rfl
    rw [lexemes] at spaced
    rw [spelled]
    exact (cut.spaced spaced).scanFrom .start
  · have listed : t.spelling ∈ pieces := by
      have mem : t.spelling ∈ pieces ++ [(.endOfInput, "")] := spelled ▸ List.mem_map_of_mem mem
      rcases List.mem_append.mp mem with listed | last
      · exact listed
      · exact absurd (congrArg Prod.fst (List.mem_singleton.mp last)) notEnd
    obtain ⟨rest, munch⟩ := cut.exists_munch t.spelling listed
    have single := Cut.token .nil munch.alone (.last .nil)
    rw [List.append_nil, String.ofList_toList] at single
    exact single.scanFrom .start

/-- A comparison, a lone ampersand and a string that is never closed, with a comment between
them. -/
theorem spacing_keeps_tokens_comment :
    let source := "a<=&\"b\\"
    let text := "a\t<= // c\n &\n\"b\\"
    Spaced ((scan source).dropLast.map (·.lexeme)) text.toList ∧
      (scan text).map spelling = (scan source).map spelling := by
  intro source text
  have tab : Separator ['\t'] := .intro (by decide) .nil
  have comment : Separator " // c\n ".toList :=
    .intro (by decide) (@Filler.comment " c".toList _ (by decide) (.blank (by decide) .nil))
  have line : Separator ['\n'] := .intro (by decide) .nil
  have lexemes : (scan source).dropLast.map (·.lexeme) = ["a", "<=", "&", "\"b\\"] := by
    decide +kernel
  have whole : text.toList = "a".toList ++ (['\t'] ++ ("<=".toList ++ (" // c\n ".toList ++
      ("&".toList ++ (['\n'] ++ "\"b\\".toList))))) := by
    decide
  have spaced : Spaced ((scan source).dropLast.map (·.lexeme)) text.toList := by
    rw [lexemes, whole]
    exact @Spaced.more "a" "<=" _ _ _ tab (@Spaced.more "<=" "&" _ _ _ comment
      (@Spaced.more "&" "\"b\\" _ _ _ line .last))
  exact ⟨spaced, (spacing_keeps_tokens source).1 text spaced⟩

end Scriptlet.Token
