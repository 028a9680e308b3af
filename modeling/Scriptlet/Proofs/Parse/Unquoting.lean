import Scriptlet.Parse.Expression
import Scriptlet.Proofs.Token.Munch

/-! # The text of a string literal

The scanner takes backslashes and what follows them in pairs from the front, and the parser counts
the backslashes in front of the last quote from the end. They agree on whether that quote closes
the literal, so what the parser reads out of a string token is what the scanner passed over. -/

namespace Scriptlet.Parse

open Token

def backslashes (cs : List Char) : Nat :=
  (cs.reverse.takeWhile (· = '\\')).length

variable {c : Char} {cs body rest : List Char}

theorem backslashes_cons (plain : c ≠ '\\') (cs : List Char) :
    backslashes (c :: cs) = backslashes cs := by
  rw [backslashes, List.reverse_cons, List.takeWhile_append]
  split
  · rename_i all
    simp [plain, backslashes, all]
  · rfl

/-- A pair is counted as a whole or not at all. -/
theorem backslashes_pair (c : Char) (cs : List Char) :
    backslashes ('\\' :: c :: cs) % 2 = backslashes cs % 2 := by
  have reversed : ('\\' :: c :: cs).reverse = cs.reverse ++ [c, '\\'] := by simp
  rw [backslashes, reversed, List.takeWhile_append]
  split
  · rename_i all
    by_cases backslash : c = '\\' <;> simp [backslash, backslashes, all]
  · rfl

theorem even_backslashes (h : Unclosed cs) : backslashes cs % 2 = 0 := by
  induction h with
  | nil => rfl
  | plain _ backslash _ ih => rw [backslashes_cons backslash, ih]
  | pair _ ih => rw [backslashes_pair, ih]

/-- A quote that does not close the text is taken along by a backslash. -/
theorem odd_backslashes (h : Unclosed (cs ++ ['"'])) : backslashes cs % 2 = 1 := by
  generalize whole : cs ++ ['"'] = text at h
  induction h generalizing cs with
  | nil => simp at whole
  | plain quote backslash _ ih =>
      cases cs with
      | nil => exact (quote (List.cons.inj whole).1.symm).elim
      | cons c cs =>
          obtain ⟨rfl, rest⟩ := List.cons.inj whole
          rw [backslashes_cons backslash, ih rest]
  | pair _ ih =>
      cases cs with
      | nil => cases (List.cons.inj whole).1
      | cons c cs =>
          obtain ⟨rfl, tail⟩ := List.cons.inj whole
          cases cs with
          | nil => rfl
          | cons c cs =>
              obtain ⟨-, rest⟩ := List.cons.inj tail
              rw [backslashes_pair, ih rest]

/-! ## Literals -/

/-- A literal that is closed stands for what is between its quotes. -/
theorem unquote_closed (h : Unclosed cs) : unquote ('"' :: (cs ++ ['"'])) = cs := by
  have even : (cs.reverse.takeWhile (· = '\\')).length % 2 = 0 := even_backslashes h
  simp [unquote, even]

/-- A literal that is not closed stands for all that follows its quote. -/
theorem unquote_unclosed (h : Unclosed cs) : unquote ('"' :: cs) = cs := by
  simp only [unquote]
  split
  · rename_i body reversed
    obtain rfl : cs = body.reverse ++ ['"'] := by
      rw [← List.reverse_reverse cs, reversed, List.reverse_cons]
    have odd : backslashes body.reverse % 2 = 1 := odd_backslashes h
    rw [backslashes, List.reverse_reverse] at odd
    simp [odd]
  · rfl

/-- So does one that ends in a backslash which has nothing to take along. -/
theorem unquote_escaping (cs : List Char) : unquote ('"' :: (cs ++ ['\\'])) = cs ++ ['\\'] := by
  simp [unquote]

end Scriptlet.Parse

namespace Scriptlet.Token

/-! ## What the scanner passes over -/

/-- The text behind an opening quote, cut where the scanner stops: what it passes over, and what is
left, which starts with the closing quote or is empty. A backslash takes the next character
along. -/
def stringSpan : List Char → List Char × List Char
  | [] => ([], [])
  | '"' :: cs => ([], '"' :: cs)
  | '\\' :: c :: cs => ('\\' :: c :: (stringSpan cs).1, (stringSpan cs).2)
  | c :: cs => (c :: (stringSpan cs).1, (stringSpan cs).2)

theorem stringSpan_append (cs : List Char) : (stringSpan cs).1 ++ (stringSpan cs).2 = cs := by
  fun_induction stringSpan cs with
  | case1 => rfl
  | case2 cs => rfl
  | case3 c cs ih => rw [List.cons_append, List.cons_append, ih]
  | case4 c cs _ _ ih => rw [List.cons_append, ih]

/-- The scanner stops at a closing quote or at the end. -/
theorem stringSpan_stops (cs : List Char) :
    (stringSpan cs).2 = [] ∨ ∃ rest, (stringSpan cs).2 = '"' :: rest := by
  fun_induction stringSpan cs with
  | case1 => exact .inl rfl
  | case2 cs => exact .inr ⟨cs, rfl⟩
  | case3 c cs ih => exact ih
  | case4 c cs _ _ ih => exact ih

theorem stringSpan_unclosed {cs : List Char} (h : Unclosed cs) (rest : List Char) :
    stringSpan (cs ++ rest) = (cs ++ (stringSpan rest).1, (stringSpan rest).2) := by
  induction h with
  | nil => rfl
  | plain quote backslash _ ih =>
      rw [List.cons_append, stringSpan, ih, List.cons_append]
      · exact quote
      · intro d ds same
        exact absurd same backslash
  | pair _ ih => rw [List.cons_append, List.cons_append, stringSpan, ih]; rfl

/-- Behind its opening quote a string is what the scanner passes over, and the closing quote if
there is one. -/
theorem take_stringTail (cs : List Char) :
    cs.take (stringTail cs) = (stringSpan cs).1 ++ (stringSpan cs).2.take 1 := by
  fun_induction stringSpan cs with
  | case1 => rfl
  | case2 cs => rfl
  | case3 c cs ih => rw [stringTail, List.take_succ_cons, List.take_succ_cons, ih]; rfl
  | case4 c cs quote pair ih =>
      rw [stringTail, List.take_succ_cons, ih, List.cons_append]
      · exact quote
      · exact pair

/-- The parser reads out of a string what the scanner passed over. -/
theorem unquote_stringTail (cs : List Char) :
    Parse.unquote ('"' :: cs.take (stringTail cs)) = (stringSpan cs).1 := by
  -- A quote closes the string, nothing does, or a last backslash takes nothing along.
  rcases stringTail_cases cs with
    ⟨body, rest, unclosed, rfl, -⟩ | ⟨unclosed | ⟨body, unclosed, rfl⟩, tail⟩
  · have span : stringSpan (body ++ '"' :: rest) = (body, '"' :: rest) := by
      rw [stringSpan_unclosed unclosed, stringSpan, List.append_nil]
    rw [take_stringTail, span]
    exact Parse.unquote_closed unclosed
  · have span := stringSpan_unclosed unclosed []
    rw [stringSpan, List.append_nil] at span
    rw [tail, List.take_length, span]
    exact Parse.unquote_unclosed unclosed
  · have span : stringSpan (body ++ ['\\']) = (body ++ ['\\'], []) :=
      stringSpan_unclosed unclosed ['\\']
    rw [tail, List.take_length, span]
    exact Parse.unquote_escaping body

/-! ## String tokens -/

theorem Munch.head_of_string {lexeme rest : List Char} (h : Munch .string lexeme rest) :
    lexeme.head? = some '"' := by
  cases h with
  | closed | unclosed | escaping => rfl
  | delimiter mem =>
      have table : ∀ entry ∈ delimiters, entry.2 ≠ .string := by decide
      exact absurd rfl (table _ mem)
  | compound mem =>
      have table : ∀ entry ∈ compounds, entry.2.2 ≠ .string := by decide
      exact absurd rfl (table _ mem)
  | simple mem =>
      have table : ∀ entry ∈ simples, entry.2.2 ≠ .string := by decide
      exact absurd rfl (table _ mem)
  | keyword _ _ _ mem =>
      have table : ∀ entry ∈ keywords, entry.2 ≠ .string := by decide
      exact absurd rfl (table _ mem)

/-- A string token starts with a quote and goes on as far as the scanner finds. -/
theorem Munch.eq_string {lexeme rest : List Char} (h : Munch .string lexeme rest) :
    ∃ cs, lexeme ++ rest = '"' :: cs ∧ lexeme = '"' :: cs.take (stringTail cs) := by
  obtain ⟨c, tail, rfl, first⟩ := h.piece
  obtain rfl : c = '"' := Option.some.inj h.head_of_string
  have length : stringTail (tail ++ rest) = tail.length := congrArg Piece.tail first
  exact ⟨tail ++ rest, rfl, by rw [length, List.take_left]⟩

/-- A token in front of the mark of the end is the first piece of the text at its place. -/
theorem munch_of_scanFrom_eq {pos : Position} {text : List Char} {front back : List Token}
    {t : Token} (h : scanFrom pos text = front ++ t :: back) (notEnd : t.kind ≠ .endOfInput) :
    ∃ before lexeme rest, text = before ++ (lexeme ++ rest) ∧ t.pos = pos.advance before ∧
      t.lexeme.toList = lexeme ∧ Munch t.kind lexeme rest ∧
      scanFrom t.pos (lexeme ++ rest) = t :: back := by
  induction text using induction_on_pieces generalizing pos front with
  | nil =>
      have mem : t ∈ scanFrom pos [] := h ▸ List.mem_append_right front List.mem_cons_self
      rw [scanFrom] at mem
      obtain rfl := List.mem_singleton.mp mem
      exact absurd rfl notEnd
  | gap gap rest isGap ih =>
      rw [scanFrom_gap isGap] at h
      obtain ⟨before, lexeme, rest, rfl, place, later⟩ := ih h
      rw [← Position.advance_append] at place
      exact ⟨gap ++ before, lexeme, rest, by rw [List.append_assoc], place, later⟩
  | token kind lexeme rest munch ih =>
      have scanned := scanFrom_munch munch pos
      rw [scanned] at h
      cases front with
      | nil =>
          obtain ⟨rfl, rfl⟩ := List.cons.inj h
          exact ⟨[], lexeme, rest, rfl, rfl, String.toList_ofList, munch, scanned⟩
      | cons _ front =>
          obtain ⟨before, word, rest, rfl, place, later⟩ := ih (List.cons.inj h).2
          rw [← Position.advance_append] at place
          exact ⟨lexeme ++ before, word, rest, by rw [List.append_assoc], place, later⟩

/-- `ScannedString source t back before body left`: the scanner takes the string `t`, with the
tokens `back` behind it, at the quote that follows `before`. It passes over `body` and stops in
front of `left`. -/
structure ScannedString (source : String) (t : Token) (back : List Token)
    (before body left : List Char) : Prop where
  text : source.toList = before ++ '"' :: (body ++ left)
  place : t.pos = .after before
  taken : scanFrom t.pos ('"' :: (body ++ left)) = t :: back
  span : stringSpan (body ++ left) = (body, left)

/-- What the parser reads out of a string is all that the scanner passed over, up to the quote that
closes it, or else up to the end of the text. So it takes a last quote off if and only if the
scanner stopped at that quote. -/
theorem unquoting_agrees_with_scan {source : String} {front back : List Token} {t : Token}
    (emitted : scan source = front ++ t :: back) (string : t.kind = .string) :
    ∃ before body left, ScannedString source t back before body left ∧
      ((∃ rest, left = '"' :: rest ∧ t.lexeme.toList = '"' :: (body ++ ['"'])) ∨
        (left = [] ∧ t.lexeme.toList = '"' :: body)) ∧
      Parse.unquote t.lexeme.toList = body ∧
      (t.lexeme.toList = '"' :: (Parse.unquote t.lexeme.toList ++ ['"']) ↔ left ≠ []) := by
  have notEnd : t.kind ≠ .endOfInput := by
    rw [string]
    decide
  obtain ⟨before, lexeme, rest, text, place, spelled, munch, taken⟩ :=
    munch_of_scanFrom_eq emitted notEnd
  rw [string] at munch
  obtain ⟨cs, whole, rfl⟩ := munch.eq_string
  rw [whole] at text taken
  have place : t.pos = .after before := place.trans (Position.after_append [] before).symm
  have parts := stringSpan_append cs
  have read : Parse.unquote t.lexeme.toList = (stringSpan cs).1 := by
    rw [spelled, unquote_stringTail]
  rw [take_stringTail] at spelled
  have stops := stringSpan_stops cs
  refine ⟨before, (stringSpan cs).1, (stringSpan cs).2, ⟨?_, place, ?_, ?_⟩, ?_, read, ?_⟩
  · rw [parts, text]
  · rw [parts, taken]
  · rw [parts]
  · rcases stops with ended | ⟨rest, closed⟩
    · exact .inr ⟨ended, by rw [spelled, ended, List.take_nil, List.append_nil]⟩
    · exact .inl ⟨rest, closed, by rw [spelled, closed]; rfl⟩
  · rw [read, spelled]
    rcases stops with ended | ⟨rest, closed⟩
    · simp [ended]
    · simp [closed]

/-- The quote behind two backslashes closes its string, the one behind a single backslash does
not. -/
theorem unquoting_agrees_with_scan_escaped :
    let source := "\"a\\\\\" + \"b\\\""
    let a : Token := ⟨.string, "\"a\\\\\"", ⟨1, 1⟩⟩
    let plus : Token := ⟨.plus, "+", ⟨1, 7⟩⟩
    let b : Token := ⟨.string, "\"b\\\"", ⟨1, 9⟩⟩
    let last : Token := ⟨.endOfInput, "", ⟨1, 13⟩⟩
    scan source = [a, plus, b, last] ∧
      (∃ before left, ScannedString source a [plus, b, last] before ['a', '\\', '\\'] left ∧
        left ≠ []) ∧
      ∃ before, ScannedString source b [last] before ['b', '\\', '"'] [] := by
  intro source a plus b last
  have emitted : scan source = [a, plus, b, last] := by decide +kernel
  have read_a : Parse.unquote a.lexeme.toList = ['a', '\\', '\\'] := by decide
  have read_b : Parse.unquote b.lexeme.toList = ['b', '\\', '"'] := by decide
  obtain ⟨before, body, left, scanned, -, read, closed⟩ :=
    @unquoting_agrees_with_scan source [] [plus, b, last] a emitted rfl
  obtain rfl := read_a.symm.trans read
  obtain ⟨before', body', left', scanned', -, read', closed'⟩ :=
    @unquoting_agrees_with_scan source [a, plus] [last] b emitted rfl
  obtain rfl := read_b.symm.trans read'
  obtain rfl : left' = [] :=
    Decidable.byContradiction fun more => absurd (closed'.mpr more) (by decide)
  exact ⟨emitted, ⟨before, left, scanned, closed.mp (by decide)⟩, before', scanned'⟩

end Scriptlet.Token
