import Scriptlet.Proofs.Text.Classes
import Scriptlet.Proofs.Token.Coverage

/-! # Maximal munch

What the tokens of each kind look like, and what cannot follow them. Together with the gaps between
them this leaves one way to cut a text into tokens, which is the way of the scanner. -/

namespace Scriptlet.Token

/-- The kind and the characters of a token, without its place. -/
def spelling (t : Token) : TokenKind × String :=
  (t.kind, t.lexeme)

/-! ## Shapes -/

/-- The operators of two characters. -/
def compounds : List (Char × Char × TokenKind) :=
  [('+', '=', .plusEqual), ('-', '=', .minusEqual), ('=', '=', .equalEqual),
   ('!', '=', .bangEqual), ('<', '=', .lessEqual), ('>', '=', .greaterEqual),
   ('&', '&', .andAnd), ('|', '|', .orOr)]

/-- The characters that are a token of their own unless a certain character follows. -/
def simples : List (Char × Char × TokenKind) :=
  [('+', '=', .plus), ('-', '=', .minus), ('=', '=', .equal), ('!', '=', .bang),
   ('<', '=', .less), ('>', '=', .greater), ('&', '&', .identifier), ('|', '|', .identifier),
   ('/', '/', .slash)]

/-- A character that no blank, word, number, string, delimiter or operator starts with. -/
def isStray (c : Char) : Bool :=
  !Text.isBlank c && !isWordStart c && !c.isDigit && c ≠ '"' &&
    !delimiters.any (·.1 = c) && !simples.any (·.1 = c)

/-- A text without a quote that would close it: a backslash takes the next character along. -/
inductive Unclosed : List Char → Prop where
  | nil : Unclosed []
  | plain {c cs} : c ≠ '"' → c ≠ '\\' → Unclosed cs → Unclosed (c :: cs)
  | pair {c cs} : Unclosed cs → Unclosed ('\\' :: c :: cs)

/-- `Munch kind lexeme rest`: in front of `rest`, the characters of `lexeme` are a token of the
given kind. -/
inductive Munch : TokenKind → List Char → List Char → Prop where
  | delimiter {c kind rest} : (c, kind) ∈ delimiters → Munch kind [c] rest
  | compound {c d kind rest} : (c, d, kind) ∈ compounds → Munch kind [c, d] rest
  | simple {c d kind rest} : (c, d, kind) ∈ simples → rest.head? ≠ some d → Munch kind [c] rest
  | number {c cs rest} : c.isDigit → (∀ d ∈ cs, isNumberPart d) →
      (∀ d ∈ rest.head?, isNumberPart d = false) → Munch .number (c :: cs) rest
  | keyword {c cs kind rest} : isWordStart c → (∀ d ∈ cs, isWordPart d) →
      (∀ d ∈ rest.head?, isWordPart d = false) → (String.ofList (c :: cs), kind) ∈ keywords →
      Munch kind (c :: cs) rest
  | name {c cs rest} : isWordStart c → (∀ d ∈ cs, isWordPart d) →
      (∀ d ∈ rest.head?, isWordPart d = false) →
      (∀ kind, (String.ofList (c :: cs), kind) ∉ keywords) → Munch .identifier (c :: cs) rest
  | closed {cs rest} : Unclosed cs → Munch .string ('"' :: (cs ++ ['"'])) rest
  /-- A string that is not closed runs to the end of the text. -/
  | unclosed {cs} : Unclosed cs → Munch .string ('"' :: cs) []
  /-- So does one that ends in a backslash which has nothing to take along. -/
  | escaping {cs} : Unclosed cs → Munch .string ('"' :: (cs ++ ['\\'])) []
  | stray {c rest} : isStray c → Munch .identifier [c] rest

/-- `Cut text pieces`: the text is made of tokens that are spelled like the pieces, each in front of
what follows it, with gaps between them. -/
inductive Cut : List Char → List (TokenKind × String) → Prop where
  | last {gap} : Gap gap [] → Cut gap []
  | token {gap lexeme rest kind pieces} : Gap gap (lexeme ++ rest) → Munch kind lexeme rest →
      Cut rest pieces → Cut (gap ++ (lexeme ++ rest)) ((kind, String.ofList lexeme) :: pieces)

/-! ## Pieces by their first character -/

/-- The characters that decide alone what starts with them. -/
def punctuation : List Char :=
  delimiters.map (·.1) ++ simples.map (·.1) ++ ['"']

theorem not_mem_punctuation {p : Char → Bool} (table : punctuation.all (!p ·)) {c : Char}
    (h : p c) : c ∉ punctuation := by
  intro mem
  have none_there := List.all_eq_true.mp table c mem
  simp [h] at none_there

theorem not_mem_punctuation_of_digit {c : Char} (h : c.isDigit) : c ∉ punctuation :=
  not_mem_punctuation (p := Char.isDigit) (by decide +kernel) h

theorem not_mem_punctuation_of_wordStart {c : Char} (h : isWordStart c) : c ∉ punctuation :=
  not_mem_punctuation (by decide +kernel) h

theorem not_mem_punctuation_of_blank {c : Char} (h : Text.isBlank c) : c ∉ punctuation :=
  not_mem_punctuation (by decide +kernel) h

/-- What starts with a character that is no punctuation. -/
theorem piece_of_not_mem {c : Char} (h : c ∉ punctuation) (cs : List Char) :
    piece c cs =
      if c.isDigit then ⟨some .number, (cs.takeWhile isNumberPart).length⟩
      else if isWordStart c then
        ⟨some ((keyword? (String.ofList (c :: cs.takeWhile isWordPart))).getD .identifier),
          (cs.takeWhile isWordPart).length⟩
      else if Text.isBlank c then ⟨none, 0⟩
      else ⟨some .identifier, 0⟩ := by
  have delimiter : delimiters.lookup c = none := by
    refine List.lookup_eq_none_iff.mpr fun entry mem => ?_
    have listed : ∀ entry ∈ delimiters, entry.1 ∈ punctuation := by decide
    simpa using fun same : c = entry.1 => h (same ▸ listed entry mem)
  have operator : operators.find? (·.first = c) = none := by
    refine List.find?_eq_none.mpr fun op mem => ?_
    have listed : ∀ op ∈ operators, op.first ∈ punctuation := by decide
    simpa using fun same : op.first = c => h (same ▸ listed op mem)
  have slash : c ≠ '/' := by
    rintro rfl
    exact h (by decide)
  have quote : c ≠ '"' := by
    rintro rfl
    exact h (by decide)
  simp only [piece, delimiter, operator, slash, quote, if_false]

/-! ## A token is the first piece -/

theorem keyword?_eq_some {word : String} {kind : TokenKind} (h : (word, kind) ∈ keywords) :
    keyword? word = some kind := by
  have table : ∀ entry ∈ keywords, keyword? entry.1 = some entry.2 := by decide
  exact table _ h

theorem keyword?_eq_none {word : String} (h : ∀ kind, (word, kind) ∉ keywords) :
    keyword? word = none := by
  refine List.lookup_eq_none_iff.mpr fun entry mem => ?_
  simpa using fun same : word = entry.1 => h entry.2 (same ▸ mem)

theorem stringTail_unclosed {cs : List Char} (h : Unclosed cs) (rest : List Char) :
    stringTail (cs ++ rest) = cs.length + stringTail rest := by
  induction h with
  | nil => simp
  | plain quote backslash _ ih =>
      rw [List.cons_append, stringTail, ih, List.length_cons]
      · omega
      · exact quote
      · intro d ds same
        exact absurd same backslash
  | pair _ ih =>
      rw [List.cons_append, List.cons_append, stringTail, ih, List.length_cons, List.length_cons]
      omega

/-- A run of characters of a class in front of one that is not of the class. -/
theorem takeWhile_append_stop {p : Char → Bool} {cs rest : List Char} (all : ∀ d ∈ cs, p d)
    (stop : ∀ d ∈ rest.head?, p d = false) : (cs ++ rest).takeWhile p = cs := by
  have none_more : rest.takeWhile p = [] := by
    cases rest with
    | nil => rfl
    | cons d rest => exact List.takeWhile_cons_of_neg (by simp [stop d rfl])
  rw [List.takeWhile_append_of_pos all, none_more, List.append_nil]

theorem piece_word {c : Char} {cs rest : List Char} (start : isWordStart c)
    (all : ∀ d ∈ cs, isWordPart d) (stop : ∀ d ∈ rest.head?, isWordPart d = false) :
    piece c (cs ++ rest) =
      ⟨some ((keyword? (String.ofList (c :: cs))).getD .identifier), cs.length⟩ := by
  have digit : ¬ c.isDigit := by
    intro digit
    have underscore : c ≠ '_' := by
      rintro rfl
      cases digit
    simp [isWordStart, Text.isAlphabetic_of_digit digit, underscore] at start
  rw [piece_of_not_mem (not_mem_punctuation_of_wordStart start), if_neg digit, if_pos start,
    takeWhile_append_stop all stop]

theorem not_mem_punctuation_of_stray {c : Char} (h : isStray c) : c ∉ punctuation := by
  simp only [isStray, Bool.and_eq_true, Bool.not_eq_true', decide_eq_true_eq, List.any_eq_false]
    at h
  obtain ⟨⟨⟨-, quote⟩, delimiter⟩, simple⟩ := h
  simp only [punctuation, List.mem_append, List.mem_map, List.mem_singleton]
  grind

/-- A token is the first piece of the text that it stands in front of. -/
theorem Munch.piece {kind : TokenKind} {lexeme rest : List Char} (h : Munch kind lexeme rest) :
    ∃ c cs, lexeme = c :: cs ∧ piece c (cs ++ rest) = ⟨some kind, cs.length⟩ := by
  cases h with
  | @delimiter c kind rest mem =>
      have table : ∀ entry ∈ delimiters, delimiters.lookup entry.1 = some entry.2 := by decide
      refine ⟨c, [], rfl, ?_⟩
      simp only [Token.piece, table _ mem, List.length_nil]
  | @compound c d kind rest mem =>
      refine ⟨c, [d], rfl, ?_⟩
      simp only [compounds, List.mem_cons, List.not_mem_nil, or_false, Prod.mk.injEq] at mem
      rcases mem with ⟨rfl, rfl, rfl⟩ | ⟨rfl, rfl, rfl⟩ | ⟨rfl, rfl, rfl⟩ | ⟨rfl, rfl, rfl⟩ |
        ⟨rfl, rfl, rfl⟩ | ⟨rfl, rfl, rfl⟩ | ⟨rfl, rfl, rfl⟩ | ⟨rfl, rfl, rfl⟩ <;> rfl
  | @simple c d kind rest mem apart =>
      refine ⟨c, [], rfl, ?_⟩
      simp only [simples, List.mem_cons, List.not_mem_nil, or_false, Prod.mk.injEq] at mem
      rcases mem with ⟨rfl, rfl, rfl⟩ | ⟨rfl, rfl, rfl⟩ | ⟨rfl, rfl, rfl⟩ | ⟨rfl, rfl, rfl⟩ |
        ⟨rfl, rfl, rfl⟩ | ⟨rfl, rfl, rfl⟩ | ⟨rfl, rfl, rfl⟩ | ⟨rfl, rfl, rfl⟩ | ⟨rfl, rfl, rfl⟩ <;>
        exact if_neg apart
  | @number c cs rest digit all stop =>
      refine ⟨c, cs, rfl, ?_⟩
      rw [piece_of_not_mem (not_mem_punctuation_of_digit digit), if_pos digit,
        takeWhile_append_stop all stop]
  | @keyword c cs kind rest start all stop mem =>
      refine ⟨c, cs, rfl, ?_⟩
      rw [piece_word start all stop, keyword?_eq_some mem, Option.getD_some]
  | @name c cs rest start all stop none_there =>
      refine ⟨c, cs, rfl, ?_⟩
      rw [piece_word start all stop, keyword?_eq_none none_there, Option.getD_none]
  | @closed cs rest inner =>
      refine ⟨'"', cs ++ ['"'], rfl, ?_⟩
      have tail : stringTail (cs ++ ['"'] ++ rest) = (cs ++ ['"']).length := by
        rw [List.append_assoc, stringTail_unclosed inner]
        simp [stringTail]
      exact congrArg (Piece.mk (some .string)) tail
  | @unclosed cs inner =>
      refine ⟨'"', cs, rfl, ?_⟩
      have tail : stringTail (cs ++ []) = cs.length := by
        rw [stringTail_unclosed inner]
        simp [stringTail]
      exact congrArg (Piece.mk (some .string)) tail
  | @escaping cs inner =>
      refine ⟨'"', cs ++ ['\\'], rfl, ?_⟩
      have tail : stringTail (cs ++ ['\\'] ++ []) = (cs ++ ['\\']).length := by
        rw [List.append_assoc, stringTail_unclosed inner]
        simp [stringTail]
      exact congrArg (Piece.mk (some .string)) tail
  | @stray c rest stray =>
      refine ⟨c, [], rfl, ?_⟩
      rw [piece_of_not_mem (not_mem_punctuation_of_stray stray)]
      simp only [isStray, Bool.and_eq_true, Bool.not_eq_true', decide_eq_true_eq] at stray
      obtain ⟨⟨⟨⟨⟨blank, word⟩, digit⟩, -⟩, -⟩, -⟩ := stray
      simp [blank, word, digit]

theorem Munch.kind_ne {kind : TokenKind} {lexeme rest : List Char} (h : Munch kind lexeme rest) :
    kind ≠ .endOfInput := by
  obtain ⟨c, cs, -, first⟩ := h.piece
  exact piece_kind_ne (congrArg Piece.kind first)

/-! ## The first piece is a token or a gap -/

theorem mem_of_lookup {α : Type} [BEq α] [LawfulBEq α] {table : List (α × TokenKind)} {key : α}
    {kind : TokenKind} (h : table.lookup key = some kind) : (key, kind) ∈ table := by
  obtain ⟨front, back, rfl, -⟩ := List.lookup_eq_some_iff.mp h
  exact List.mem_append_right front List.mem_cons_self

theorem not_mem_keywords {word : String} (h : keyword? word = none) (kind : TokenKind) :
    (word, kind) ∉ keywords := by
  intro mem
  rw [keyword?_eq_some mem] at h
  cases h

/-- What follows the opening quote of a string closes it, or is all of the text. -/
theorem stringTail_cases (cs : List Char) :
    (∃ inner rest, Unclosed inner ∧ cs = inner ++ '"' :: rest ∧
      stringTail cs = inner.length + 1) ∨
    ((Unclosed cs ∨ ∃ inner, Unclosed inner ∧ cs = inner ++ ['\\']) ∧
      stringTail cs = cs.length) := by
  fun_induction stringTail cs with
  | case1 => exact .inr ⟨.inl .nil, rfl⟩
  | case2 cs => exact .inl ⟨[], cs, .nil, rfl, rfl⟩
  | case3 c cs ih =>
      rcases ih with ⟨inner, rest, unclosed, rfl, tail⟩ | ⟨open_, tail⟩
      · exact .inl ⟨'\\' :: c :: inner, rest, .pair unclosed, rfl, by simp [tail]⟩
      · refine .inr ⟨open_.imp .pair ?_, by simp [tail]⟩
        rintro ⟨inner, unclosed, rfl⟩
        exact ⟨'\\' :: c :: inner, .pair unclosed, rfl⟩
  | case4 c cs quote pair ih =>
      by_cases backslash : c = '\\'
      · -- A backslash with nothing behind it is the last character.
        subst backslash
        obtain rfl : cs = [] := by
          cases cs with
          | nil => rfl
          | cons d cs => exact (pair d cs rfl rfl).elim
        exact .inr ⟨.inr ⟨[], .nil, rfl⟩, rfl⟩
      · have plain : c ≠ '"' := fun same => quote same
        rcases ih with ⟨inner, rest, unclosed, rfl, tail⟩ | ⟨open_, tail⟩
        · exact .inl ⟨c :: inner, rest, .plain plain backslash unclosed, rfl, by simp [tail]⟩
        · refine .inr ⟨open_.imp (.plain plain backslash) ?_, by simp [tail]⟩
          rintro ⟨inner, unclosed, rfl⟩
          exact ⟨c :: inner, .plain plain backslash unclosed, rfl⟩

theorem munch_string (cs : List Char) :
    Munch .string ('"' :: cs.take (stringTail cs)) (cs.drop (stringTail cs)) := by
  rcases stringTail_cases cs with ⟨inner, rest, unclosed, rfl, tail⟩ | ⟨open_, tail⟩
  · have whole : inner ++ '"' :: rest = (inner ++ ['"']) ++ rest := by simp
    have length : inner.length + 1 = (inner ++ ['"']).length := by simp
    rw [tail, whole, length, List.take_left, List.drop_left]
    exact .closed unclosed
  · rw [tail, List.take_length, List.drop_length]
    rcases open_ with unclosed | ⟨inner, unclosed, rfl⟩
    · exact .unclosed unclosed
    · exact .escaping unclosed

theorem forall_mem_takeWhile (p : Char → Bool) (cs : List Char) :
    ∀ d ∈ cs.takeWhile p, p d :=
  List.all_eq_true.mp List.all_takeWhile

theorem head?_dropWhile_stop (p : Char → Bool) (cs : List Char) :
    ∀ d ∈ (cs.dropWhile p).head?, p d = false := by
  intro d first
  have := List.head?_dropWhile_not p cs
  simp_all

/-- A piece with a kind is a token in front of the rest of the text. -/
theorem munch_piece {c : Char} {cs : List Char} {kind : TokenKind}
    (h : (piece c cs).kind = some kind) :
    Munch kind (c :: cs.take (piece c cs).tail) (cs.drop (piece c cs).tail) := by
  revert h
  fun_cases piece c cs with
  | case1 kind lookup =>
      rintro ⟨⟩
      exact .delimiter (mem_of_lookup lookup)
  | case2 _ op find head =>
      rintro ⟨⟩
      have table : ∀ op ∈ operators, (op.first, op.second, op.double) ∈ compounds := by decide
      obtain ⟨rest, rfl⟩ : ∃ rest, cs = op.second :: rest := by
        cases cs with
        | nil => cases head
        | cons d rest => exact ⟨rest, by rw [Option.some.inj head]⟩
      obtain rfl : op.first = c := by simpa using List.find?_some find
      exact .compound (table op (List.mem_of_find?_eq_some find))
  | case3 _ op find head =>
      rintro ⟨⟩
      have table : ∀ op ∈ operators, (op.first, op.second, op.single) ∈ simples := by decide
      obtain rfl : op.first = c := by simpa using List.find?_some find
      exact .simple (table op (List.mem_of_find?_eq_some find)) head
  | case5 _ _ slash once =>
      rintro ⟨⟩
      subst slash
      exact .simple (by decide) once
  | case6 _ _ _ quote =>
      rintro ⟨⟩
      subst quote
      exact munch_string cs
  | case7 _ _ _ _ digit =>
      rintro ⟨⟩
      rw [take_length_takeWhile, drop_length_takeWhile]
      exact .number digit (forall_mem_takeWhile _ cs) (head?_dropWhile_stop _ cs)
  | case8 _ _ _ _ _ start tail =>
      rintro ⟨⟩
      rw [take_length_takeWhile, drop_length_takeWhile]
      have all := forall_mem_takeWhile isWordPart cs
      have stop := head?_dropWhile_stop isWordPart cs
      cases found : keyword? (String.ofList (c :: tail)) with
      | none => exact .name start all stop (not_mem_keywords found)
      | some kind => exact .keyword start all stop (mem_of_lookup found)
  | case10 delimiter operator slash quote digit start blank =>
      rintro ⟨⟩
      refine .stray ?_
      have delimiter : ∀ entry ∈ delimiters, ¬ entry.1 = c := by
        intro entry mem same
        simpa [same] using List.lookup_eq_none_iff.mp delimiter entry mem
      have simple : ∀ entry ∈ simples, ¬ entry.1 = c := by
        have table : ∀ entry ∈ simples, entry.1 = '/' ∨ ∃ op ∈ operators, op.first = entry.1 := by
          decide
        intro entry mem same
        rcases table entry mem with first | ⟨op, listed, first⟩
        · exact slash (same ▸ first)
        · simpa [first, same] using List.find?_eq_none.mp operator op listed
      simp only [isStray, Bool.and_eq_true, Bool.not_eq_true', decide_eq_true_eq,
        List.any_eq_false]
      exact ⟨⟨⟨⟨⟨by simpa using blank, by simpa using start⟩, by simpa using digit⟩, quote⟩,
        delimiter⟩, simple⟩
  | case4 | case9 => intro h; cases h

/-! ## Scanning -/

theorem scanFrom_cons (pos : Position) (c : Char) (cs : List Char) :
    scanFrom pos (c :: cs) =
      ((piece c cs).kind.map fun kind =>
        (⟨kind, String.ofList (c :: cs.take (piece c cs).tail), pos⟩ : Token)).toList ++
      scanFrom (pos.advance (c :: cs.take (piece c cs).tail)) (cs.drop (piece c cs).tail) := by
  rw [scanFrom]
  cases (piece c cs).kind <;> rfl

/-- The scanner takes a token and goes on behind it. -/
theorem scanFrom_munch {kind : TokenKind} {lexeme rest : List Char} (h : Munch kind lexeme rest)
    (pos : Position) : scanFrom pos (lexeme ++ rest) =
      ⟨kind, String.ofList lexeme, pos⟩ :: scanFrom (pos.advance lexeme) rest := by
  obtain ⟨c, cs, rfl, piece⟩ := h.piece
  rw [List.cons_append, scanFrom_cons, piece, List.take_left, List.drop_left]
  rfl

theorem piece_of_blank {c : Char} (h : Text.isBlank c) (cs : List Char) :
    piece c cs = ⟨none, 0⟩ := by
  have digit : ¬ c.isDigit := by
    intro digit
    rw [Text.isBlank_of_digit digit] at h
    cases h
  have word : ¬ isWordStart c := by
    have underscore : c ≠ '_' := by
      rintro rfl
      cases h
    simp [isWordStart, Text.isAlphabetic_of_blank h, underscore]
  rw [piece_of_not_mem (not_mem_punctuation_of_blank h), if_neg digit, if_neg word, if_pos h]

theorem piece_of_comment {body rest : List Char} (inner : '\n' ∉ body)
    (stop : ∀ c ∈ rest.head?, c = '\n') :
    piece '/' ('/' :: body ++ rest) = ⟨none, ('/' :: body).length⟩ := by
  have run : ('/' :: body ++ rest).takeWhile (· ≠ '\n') = '/' :: body := by
    refine takeWhile_append_stop ?_ (by simpa using stop)
    intro d mem
    simp only [ne_eq, decide_not, Bool.not_eq_true', decide_eq_false_iff_not]
    rintro rfl
    simp [inner] at mem
  exact congrArg (fun run => Piece.mk none (List.length run)) run

/-- The scanner passes over a gap. -/
theorem scanFrom_gap {gap rest : List Char} (h : Gap gap rest) (pos : Position) :
    scanFrom pos (gap ++ rest) = scanFrom (pos.advance gap) rest := by
  induction h generalizing pos with
  | nil => rfl
  | @blank c gap rest blank _ ih =>
      rw [List.cons_append, scanFrom_cons, piece_of_blank blank]
      exact ih (pos.advance [c])
  | @comment body gap rest inner stop _ ih =>
      have whole : '/' :: '/' :: body ++ gap ++ rest = '/' :: ('/' :: body ++ (gap ++ rest)) := by
        simp
      rw [whole, scanFrom_cons, piece_of_comment inner stop, List.take_left, List.drop_left]
      have later := ih (pos.advance ('/' :: '/' :: body))
      rw [← Position.advance_append] at later
      exact later

/-- A text that is cut into tokens is scanned to them. -/
theorem Cut.scanFrom {text : List Char} {pieces : List (TokenKind × String)} (h : Cut text pieces)
    (pos : Position) :
    (scanFrom pos text).map spelling = pieces ++ [(.endOfInput, "")] := by
  induction h generalizing pos with
  | @last gap isGap =>
      have passed := scanFrom_gap isGap pos
      rw [List.append_nil] at passed
      rw [passed, Token.scanFrom]
      rfl
  | token isGap munch _ ih =>
      rw [scanFrom_gap isGap, scanFrom_munch munch, List.map_cons, ih]
      rfl

/-- A gap in front of a text that is cut becomes part of its first gap. -/
theorem Cut.gap {gap text : List Char} {pieces : List (TokenKind × String)} (isGap : Gap gap text)
    (h : Cut text pieces) : Cut (gap ++ text) pieces := by
  cases h with
  | last isGap' => exact .last (Gap.append (by rwa [List.append_nil]) isGap')
  | token isGap' munch rest =>
      rw [← List.append_assoc]
      exact .token (isGap.append isGap') munch rest

/-- Induction along a text, from one gap or token to the next. -/
theorem induction_on_pieces {motive : List Char → Prop} (nil : motive [])
    (gap : ∀ gap rest, Gap gap rest → motive rest → motive (gap ++ rest))
    (token : ∀ kind lexeme rest, Munch kind lexeme rest → motive rest → motive (lexeme ++ rest)) :
    ∀ text, motive text
  | [] => nil
  | c :: cs => by
      have whole : c :: cs = (c :: cs.take (piece c cs).tail) ++ cs.drop (piece c cs).tail := by
        rw [List.cons_append, List.take_append_drop]
      have later := induction_on_pieces nil gap token (cs.drop (piece c cs).tail)
      rw [whole]
      cases hk : (piece c cs).kind with
      | none => exact gap _ _ (piece_gap hk) later
      | some kind => exact token kind _ _ (munch_piece hk) later
termination_by text => text.length
decreasing_by
  simp only [List.length_cons, List.length_drop]
  omega

/-- The tokens of a text cut it. -/
theorem cut_scanFrom (pos : Position) (text : List Char) :
    ∃ pieces, (scanFrom pos text).map spelling = pieces ++ [(.endOfInput, "")] ∧
      Cut text pieces := by
  induction text using induction_on_pieces generalizing pos with
  | nil => exact ⟨[], by rw [scanFrom]; rfl, .last .nil⟩
  | gap gap rest isGap ih =>
      obtain ⟨pieces, spelled, cut⟩ := ih (pos.advance gap)
      rw [scanFrom_gap isGap]
      exact ⟨pieces, spelled, .gap isGap cut⟩
  | token kind lexeme rest munch ih =>
      obtain ⟨pieces, spelled, cut⟩ := ih (pos.advance lexeme)
      rw [scanFrom_munch munch]
      exact ⟨(kind, _) :: pieces, congrArg (_ :: ·) spelled, .token .nil munch cut⟩

/-- The tokens of a text are the only ones that it can be cut into. -/
theorem cut_iff_scan (source : String) (pieces : List (TokenKind × String)) :
    Cut source.toList pieces ↔
      (scan source).map spelling = pieces ++ [(.endOfInput, "")] := by
  refine ⟨fun cut => cut.scanFrom .start, fun spelled => ?_⟩
  obtain ⟨pieces', spelled', cut⟩ := cut_scanFrom .start source.toList
  obtain rfl : pieces' = pieces := List.append_cancel_right (spelled'.symm.trans spelled)
  exact cut

end Scriptlet.Token
