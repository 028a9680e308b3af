import Mathlib
import Scriptlet.Proofs.Lambda.Notation
import Scriptlet.Proofs.Session.Concatenation
import Scriptlet.Proofs.Session.Layout
import Scriptlet.Proofs.Token.Endings

/-! # The meaning of translated lambdas

The source that a lambda is translated to is a text around the body of the lambda. Its tokens are
those of the function around those of the body, so it is read to the function with the body's
statement, as long as the semicolon that is put behind the body is a token. -/

namespace Scriptlet

open Parse Grammar

/-! ## Scripts with a single statement -/

namespace Script

/-- Texts with the same tokens as a token list, apart from places, are read like it. -/
theorem read_of_cut {source : String} {ts : List Token}
    (cut : Token.Cut source.toList (ts.map Token.spelling)) {erased : Program} :
    (ofSource source).diagnostics = [] ∧ (ofSource source).program.erase = erased ↔
      ∃ program : Program, (topLevel ts).read? = some (program, []) ∧ program.erase = erased := by
  have endless : ∀ t ∈ ts, t.kind ≠ .endOfInput := by
    intro t mem
    obtain ⟨rest, munch⟩ := cut.exists_munch _ (List.mem_map_of_mem mem)
    exact munch.kind_ne
  obtain ⟨last, ends, spelling⟩ : ∃ last : Token, last.kind = .endOfInput ∧
      last.spelling = (.endOfInput, "") := ⟨⟨.endOfInput, "", .start⟩, rfl, rfl⟩
  have spelled : (Token.scan source).map Token.spelling = (ts ++ [last]).map Token.spelling := by
    rw [List.map_append, List.map_singleton, spelling]
    exact cut.scanFrom .start
  have like := Likeness.tokens_upToPlaces spelled
  have programs : (ofSource source).program.erase = (ofTokens (ts ++ [last])).program.erase :=
    forall₂_map_eq.mp (alike_program like)
  have faults :
      (ofSource source).diagnostics.length = (ofTokens (ts ++ [last])).diagnostics.length :=
    (alike_diagnostics like (.inl trivial)).length_eq
  have alone (program : Program) : (topLevel ts).read? = some (program, []) ↔
      (ofTokens (ts ++ [last])).diagnostics = [] ∧ (ofTokens (ts ++ [last])).program = program := by
    rw [← read?_topLevel_body, body_append_end endless ends]
  rw [← List.length_eq_zero_iff, faults, List.length_eq_zero_iff, programs]
  simp only [alone]
  constructor
  · rintro ⟨clean, rfl⟩
    exact ⟨_, ⟨clean, rfl⟩, rfl⟩
  · rintro ⟨program, ⟨clean, rfl⟩, rfl⟩
    exact ⟨clean, rfl⟩

end Script

namespace Parse

variable {ts front rest : List Token} {e : Expr}

/-- What is read as an expression statement is read by the rule for them. -/
theorem read?_expressionStatement {pos : Position}
    (read : (statement ts).read? = some (.expression pos e, rest)) :
    (expressionStatement ts).read? = some (.expression pos e, rest) := by
  cases statement_sound read with
  | varDecl d => cases d
  | expression d =>
      obtain ⟨t, first, starts⟩ := d.starts
      cases ts with
      | nil => cases first
      | cons t' ts =>
          obtain rfl : t' = t := by simpa using first
          rwa [statement, statementFrom_expression starts, Attempt.read?_clean] at read

/-- The tokens of an expression and the semicolon behind them. -/
structure ExpressionTokens (front : List Token) (semi : Token) (e : Expr) : Prop where
  kind : semi.kind = .semicolon
  inside : ∀ t ∈ front, t.kind.inExpression
  alone : (expression front).read? = some (e, [])

/-- In front of its semicolon, the expression is a phrase. -/
theorem ExpressionTokens.phrase {semi : Token} (h : ExpressionTokens front semi e)
    (behind : List Token) : Expression (front ++ semi :: behind) e (semi :: behind) :=
  expression_sound ((follows_expression (barred_semicolon h.kind behind) front).read?_iff.mpr
    ⟨[], List.nil_suffix, h.alone, rfl⟩)

theorem ExpressionTokens.ne_semicolon {semi : Token} (h : ExpressionTokens front semi e) :
    ∀ piece ∈ front.map Token.spelling, piece.1 ≠ .semicolon := by
  refine List.forall_mem_map.mpr fun t mem kind => ?_
  have inner := h.inside t mem
  rw [show t.kind = .semicolon from kind] at inner
  cases inner

theorem ExpressionTokens.map_spelling {semi : Token} (h : ExpressionTokens front semi e)
    (behind : List Token) : (front ++ semi :: behind).map Token.spelling =
      front.map Token.spelling ++ (.semicolon, semi.lexeme) :: behind.map Token.spelling := by
  rw [List.map_append, List.map_cons, Token.spelling, h.kind]

theorem ExpressionTokens.head? {semi : Token} (h : ExpressionTokens front semi e)
    (behind : List Token) :
    ∀ t ∈ (front ++ semi :: behind).head?, t.kind.inExpression ∨ t.kind = .semicolon := by
  intro t first
  cases front with
  | nil =>
      obtain rfl : semi = t := by simpa using first
      exact .inr h.kind
  | cons t' front =>
      obtain rfl : t' = t := by simpa using first
      exact .inl (h.inside t' List.mem_cons_self)

/-- An expression statement is an expression and a semicolon. -/
theorem exists_expression {pos : Position}
    (read : (statement ts).read? = some (.expression pos e, rest)) :
    ∃ front semi, ts = front ++ semi :: rest ∧ ExpressionTokens front semi e := by
  obtain ⟨front, back, rfl, inside, bars⟩ : ∃ front back, ts = front ++ back ∧
      (∀ t ∈ front, t.kind.inExpression) ∧ Barred back :=
    ⟨_, _, List.takeWhile_append_dropWhile.symm, List.all_eq_true.mp List.all_takeWhile,
      barred_dropWhile ts⟩
  have whole := read?_expressionStatement read
  simp only [expressionStatement, Parsed.read?_andThen, Parsed.read?_succ, Parsed.read?_map,
    read?_expect] at whole
  obtain ⟨e', mid, -, first, semi, ⟨rfl, kind⟩, same⟩ := whole
  obtain ⟨-, rfl⟩ := Stmt.expression.inj same
  obtain ⟨left, suffix, alone, behind⟩ := (follows_expression bars front).read?_iff.mp first
  -- the semicolon stands in no expression, so nothing of the front is left
  obtain rfl : left = [] := by
    cases left with
    | nil => rfl
    | cons t left =>
        obtain ⟨rfl, -⟩ := List.cons.inj behind
        have inner := inside semi (suffix.subset List.mem_cons_self)
        rw [kind] at inner
        cases inner
  exact ⟨front, semi, by rw [behind]; rfl, kind, inside, alone⟩

/-- The first statement in the body of a function. -/
theorem exists_statement {name : String} {params : List String} {program : Program} {s : Stmt}
    {ss : List Stmt} (head : FunctionHead ts name params rest)
    (read : (topLevel ts).read? = some (program, []))
    (same : program.erase = Program.erase [.function default name params (s :: ss) {}]) :
    ∃ s' mid, (statement rest).read? = some (s', mid) ∧ s'.erase = s.erase := by
  obtain ⟨t, a, rfl, keyword, word, rfl, readHead⟩ := head.read
  rw [topLevel, read?_sequence_cons, if_neg Bool.false_ne_true] at read
  obtain ⟨f, mid, others, -, readFunction, -, rfl⟩ := read
  simp only [statement, statementFrom, keyword, Attempt.read?_succ, function,
    Attempt.read?_andThen, Attempt.read?_clean, Attempt.read?_map] at readFunction
  obtain ⟨found, mid', shorter, readHead', body, readBody, rfl⟩ := readFunction
  obtain ⟨rfl, rfl⟩ := Prod.mk.inj (Option.some.inj (readHead.symm.trans readHead'))
  have bodies : body.map Stmt.erase = s.erase :: ss.map Stmt.erase := by
    simp only [Program.erase, List.map_cons, Stmt.erase, Stmt.eraseEach_eq_map] at same
    exact (Stmt.function.inj (List.cons.inj same).1).2.2.2.1
  simp only [blockBody, Sequence.read?_andThen] at readBody
  obtain ⟨items, left, readItems, readEnd⟩ := readBody
  obtain rfl : body = items := by
    cases left with
    | nil => exact (Parsed.eq_of_read?_done readEnd).1
    | cons brace left => exact (Parsed.eq_of_read?_done (Parsed.read?_succ _ ▸ readEnd)).1
  cases rest with
  | nil =>
      obtain ⟨rfl, -⟩ := (read?_sequence_nil _).mp readItems
      cases bodies
  | cons t' rest =>
      rw [read?_sequence_cons] at readItems
      split at readItems
      · obtain ⟨rfl, -⟩ := readItems
        cases bodies
      · obtain ⟨s', mid, others, -, first, -, rfl⟩ := readItems
        exact ⟨s', mid, first, (List.cons.inj bodies).1⟩

end Parse

/-- The tokens of a text that is one expression statement. -/
theorem Script.exists_expression {source : String} {pos : Position} {e : Expr}
    (read : ofSource source = ⟨[.expression pos e], []⟩) :
    ∃ front semi, Token.Cut source.toList ((front ++ [semi]).map Token.spelling) ∧
      ExpressionTokens front semi e := by
  obtain ⟨ts, last, tokens, ends, endless⟩ := Token.exists_scanFrom_eq .start source.toList
  have whole : (topLevel ts).read? = some ([.expression pos e], []) := by
    rw [← body_append_end endless ends, ← tokens]
    exact (read?_topLevel_body _).mpr ⟨congrArg diagnostics read, congrArg program read⟩
  obtain ⟨pieces, spelled, cut⟩ := Token.cut_scanFrom .start source.toList
  rw [tokens, List.map_append] at spelled
  obtain ⟨rfl, -⟩ := List.append_inj' spelled rfl
  cases ts with
  | nil => simp [topLevel, read?_sequence_nil] at whole
  | cons t ts =>
      rw [topLevel, read?_sequence_cons, if_neg Bool.false_ne_true] at whole
      obtain ⟨s, mid, others, shorter, first, second, same⟩ := whole
      obtain ⟨rfl, rfl⟩ := List.cons.inj same
      obtain rfl : mid = [] := by
        cases mid with
        | nil => rfl
        | cons t mid =>
            rw [read?_sequence_cons, if_neg Bool.false_ne_true] at second
            obtain ⟨_, _, _, -, -, -, none⟩ := second
            cases none
      obtain ⟨front, semi, whole, tokens⟩ := Parse.exists_expression first
      exact ⟨front, semi, whole ▸ cut, tokens⟩

namespace Lambda

open Token

/-! ## The first line -/

section Head

variable {name : String} {params : List String} {more : List Char} {rest : List Token}
  {pieces : List (TokenKind × String)}

theorem IsName.cut (isName : IsName name) (apart : ∀ c ∈ more.head?, Token.isWordPart c = false)
    (cut : Cut more pieces) : Cut (name.toList ++ more) ((.identifier, name) :: pieces) := by
  obtain ⟨c, cs, spelled, start, all⟩ := isName.starts
  have whole : String.ofList (c :: cs) = name := by
    rw [← spelled, String.ofList_toList]
  have munch : Munch .identifier (c :: cs) more :=
    .name start all apart (by rw [whole]; exact not_mem_keywords isName.free)
  rw [spelled, ← whole]
  exact .token .nil munch cut

theorem cut_word {c : Char} {cs : List Char} {kind : TokenKind} (start : isWordStart c)
    (all : cs.all isWordPart) (mem : (String.ofList (c :: cs), kind) ∈ keywords)
    (cut : Cut more pieces) :
    Cut (c :: cs ++ ' ' :: more) ((kind, String.ofList (c :: cs)) :: pieces) := by
  have stop : ∀ d ∈ (' ' :: more).head?, isWordPart d = false := by
    rintro _ ⟨⟩
    decide +kernel
  exact .token .nil (.keyword start (List.all_eq_true.mp all) stop mem)
    (.blank_cons (by decide +kernel) cut)

def parameterPieces (params : List String) : List (TokenKind × String) :=
  (params.map fun p => (.identifier, p)).intersperse (.comma, ",")

def headPieces (name : String) (params : List String) : List (TokenKind × String) :=
  (.kwFunction, "function") :: (.identifier, name) :: (.leftParen, "(") ::
    (parameterPieces params ++ [(.rightParen, ")"), (.leftBrace, "\x7b")])

theorem cut_parameters (areNames : ∀ p ∈ params, IsName p) (cut : Cut (')' :: more) pieces) :
    Cut (", ".toList.intercalate (params.map String.toList) ++ ')' :: more)
      (parameterPieces params ++ pieces) := by
  induction params with
  | nil => exact cut
  | cons p params ih =>
      obtain ⟨first, others⟩ := List.forall_mem_cons.mp areNames
      cases params with
      | nil =>
          have single := first.cut (by simpa using (by decide +kernel : isWordPart ')' = false)) cut
          simpa [parameterPieces] using single
      | cons q params =>
          have comma : Cut (',' :: ' ' :: _) ((.comma, ",") :: _) :=
            .delimiter_cons (by decide) (.blank_cons (by decide +kernel) (ih others))
          have whole := first.cut
            (by simpa using (by decide +kernel : isWordPart ',' = false)) comma
          simpa [parameterPieces] using whole

theorem cut_headText (isName : IsName name) (areNames : ∀ p ∈ params, IsName p)
    (cut : Cut more pieces) :
    Cut (headText name params ++ more) (headPieces name params ++ pieces) := by
  have brace : Cut ('\x7b' :: '\n' :: more) ((.leftBrace, "\x7b") :: pieces) :=
    .delimiter_cons (by decide) (.blank_cons (by decide +kernel) cut)
  have closing : Cut (')' :: ' ' :: _) ((.rightParen, ")") :: _) :=
    .delimiter_cons (by decide) (.blank_cons (by decide +kernel) brace)
  have opening : Cut ('(' :: _) ((.leftParen, "(") :: _) :=
    .delimiter_cons (by decide) (cut_parameters areNames closing)
  have named := isName.cut (by simpa using (by decide +kernel : isWordPart '(' = false)) opening
  have whole : Cut ("function".toList ++ ' ' :: _) ((.kwFunction, "function") :: _) :=
    cut_word (by decide +kernel) (by decide +kernel) (by decide) named
  have text : headText name params ++ more =
      "function".toList ++ ' ' :: (name.toList ++ '(' ::
        (", ".toList.intercalate (params.map String.toList) ++
          ')' :: ' ' :: '\x7b' :: '\n' :: more)) := by
    have keyword : "function ".toList = "function".toList ++ [' '] := by decide
    have parenthesis : "(".toList = ['('] := by decide
    have end_ : ") \x7b\n".toList = [')', ' ', '\x7b', '\n'] := by decide
    unfold headText
    generalize ", ".toList.intercalate (params.map String.toList) = list
    rw [keyword, parenthesis, end_]
    simp only [List.append_assoc, List.cons_append, List.nil_append]
  rw [text]
  simpa only [headPieces, List.append_assoc, List.cons_append, List.nil_append] using whole

/-- The token of a piece, at the place where texts start. -/
def placed (piece : TokenKind × String) : Token :=
  ⟨piece.1, piece.2, .start⟩

theorem map_spelling_placed (pieces : List (TokenKind × String)) :
    (pieces.map placed).map spelling = pieces := by
  rw [List.map_map]
  exact List.map_id pieces

theorem terminal_placed (kind : TokenKind) (lexeme : String) (rest : List Token) :
    Terminal kind (placed (kind, lexeme) :: rest) rest :=
  ⟨rfl⟩

theorem named_placed (word : String) (rest : List Token) :
    Named word (placed (.identifier, word) :: rest) rest :=
  @Named.intro (placed (.identifier, word)) rest rfl

theorem parameters_placed (p : String) (params : List String) (rest : List Token) :
    Parameters ((parameterPieces (p :: params)).map placed ++ rest) (p :: params) rest := by
  induction params generalizing p with
  | nil => exact .one (named_placed p rest)
  | cons q params ih =>
      exact .more (named_placed p _) (terminal_placed .comma "," _) (ih q)

theorem functionHead_placed (name : String) (params : List String) (rest : List Token) :
    FunctionHead ((headPieces name params).map placed ++ rest) name params rest := by
  have keyword := terminal_placed .kwFunction "function"
  have named := named_placed name
  have opening := terminal_placed .leftParen "("
  have closing := terminal_placed .rightParen ")"
  have brace := terminal_placed .leftBrace "\x7b" rest
  cases params with
  | nil => exact .nullary (keyword _) (named _) (opening _) (closing _) brace
  | cons p params =>
      have list := parameters_placed p params (placed (.rightParen, ")") ::
        placed (.leftBrace, "\x7b") :: rest)
      simp only [headPieces, List.map_cons, List.map_append, List.cons_append, List.append_assoc,
        List.map_nil, List.nil_append]
      exact .intro (keyword _) (named _) (opening _) list (closing _) brace

end Head

/-! ## The body -/

section Body

variable {value body : List Char} {pieces : List (TokenKind × String)}

theorem cut_indented {more : List Char} (cut : Cut more pieces) :
    Cut ([' ', ' ', ' ', ' '] ++ more) pieces :=
  cut.blanks_append (List.all_eq_true.mp (by decide +kernel))

theorem cut_returnText {more : List Char}
    (cut : Cut (Text.dropEndWhile (· = ';') (Text.trim value) ++ ';' :: '\n' :: more) pieces) :
    Cut (returnText value ++ more) ((.kwReturn, "return") :: pieces) := by
  have word : Cut ("return".toList ++ ' ' :: _) ((.kwReturn, "return") :: _) :=
    cut_word (by decide +kernel) (by decide +kernel) (by decide) cut
  have front : "    return ".toList = [' ', ' ', ' ', ' '] ++ ("return".toList ++ [' ']) := by
    decide
  have back : ";\n".toList = [';', '\n'] := by decide
  have whole := cut_indented word
  unfold returnText
  rw [front, back]
  simpa only [List.append_assoc, List.cons_append, List.nil_append] using whole

theorem cut_plainText {more : List Char}
    (cut : Cut (Text.dropEndWhile (· = ';') body ++ ';' :: '\n' :: more) pieces) :
    Cut (plainText body ++ more) pieces := by
  have front : "    ".toList = [' ', ' ', ' ', ' '] := by decide
  have back : ";\n".toList = [';', '\n'] := by decide
  have whole := cut_indented cut
  unfold plainText
  rw [front, back]
  simpa only [List.append_assoc, List.cons_append, List.nil_append] using whole

/-- A value is found up to blanks and semicolons when it is trimmed with a semicolon behind it. -/
theorem exists_value (value : List Char) :
    ∃ before semis, (∀ c ∈ before, Text.isBlank c) ∧ (∀ c ∈ semis, c = ';') ∧
      value = before ++ (Text.dropEndWhile (· = ';') (Text.trim (value ++ [';'])) ++ semis) := by
  have blanks : ∀ c ∈ value.takeWhile Text.isBlank, Text.isBlank c :=
    List.all_eq_true.mp List.all_takeWhile
  have whole : value ++ [';'] =
      value.takeWhile Text.isBlank ++ (value.dropWhile Text.isBlank ++ [';']) := by
    rw [← List.append_assoc, List.takeWhile_append_dropWhile]
  have semicolon : Text.isBlank ';' = false := by decide +kernel
  have trimmed : Text.trim (value ++ [';']) = value.dropWhile Text.isBlank ++ [';'] := by
    rw [whole, Text.trim_blanks_append blanks]
    refine Text.trim_eq_self (fun c first => ?_) (by simpa using semicolon)
    cases rest : value.dropWhile Text.isBlank with
    | nil =>
        obtain rfl : ';' = c := by simpa [rest] using first
        exact semicolon
    | cons d rest' =>
        obtain rfl : d = c := by simpa [rest] using first
        exact head?_dropWhile_stop Text.isBlank value d (by simp [rest])
  obtain ⟨semis, all, rest⟩ :=
    Text.exists_dropEndWhile_append (· = ';') (value.dropWhile Text.isBlank)
  refine ⟨value.takeWhile Text.isBlank, semis, blanks, by simpa using all, ?_⟩
  rw [trimmed, Text.dropEndWhile_append (by simp), ← rest, List.takeWhile_append_dropWhile]

/-- The tokens of a text with a semicolon behind it are those of the text without the blanks in
front. -/
theorem cut_of_blanks {source : String} {e : Expr} {front : List Token} {semi : Token}
    {before semis after : List Char} (tokens : ExpressionTokens front semi e)
    (cut : Cut (source ++ ";").toList ((front ++ [semi]).map spelling))
    (blanks : ∀ c ∈ before, Text.isBlank c)
    (whole : source.toList = before ++ (value ++ (semis ++ after))) :
    Cut (value ++ (semis ++ (after ++ [';'])))
      (front.map spelling ++ [(.semicolon, semi.lexeme)]) := by
  have text : (source ++ ";").toList = before ++ (value ++ (semis ++ (after ++ [';']))) := by
    rw [String.toList_append, whole]
    simp
  rw [text, tokens.map_spelling] at cut
  exact cut.of_blanks_append blanks

/-- The braces of a block are around no expression. -/
theorem head?_trim_ne {source : String} {e : Expr} {front : List Token} {semi : Token}
    (tokens : ExpressionTokens front semi e)
    (cut : Cut (source ++ ";").toList ((front ++ [semi]).map spelling)) :
    (Text.trim source.toList).head? ≠ some '\x7b' := by
  obtain ⟨before, after, blanks, -, whole⟩ := Text.exists_trim source.toList
  intro opening
  generalize Text.trim source.toList = text at opening whole
  cases text with
  | nil => cases opening
  | cons c text =>
      obtain rfl : c = '\x7b' := by simpa using opening
      have alone := @cut_of_blanks _ _ _ _ _ _ [] _ tokens cut blanks whole
      obtain ⟨pieces, -, rest⟩ := cut_scanFrom .start (text ++ ([] ++ (after ++ [';'])))
      have brace : Cut ('\x7b' :: (text ++ ([] ++ (after ++ [';']))))
          ((.leftBrace, "\x7b") :: pieces) :=
        .delimiter_cons (by decide) rest
      have same := alone.unique brace
      rw [← List.map_nil, ← tokens.map_spelling] at same
      obtain ⟨t, others, start, spelled, -⟩ := List.map_eq_cons_iff.mp same
      have kind : t.kind = .leftBrace := congrArg Prod.fst spelled
      have first := tokens.head? [] t (by rw [start]; rfl)
      rw [kind] at first
      rcases first with inner | semicolon
      · cases inner
      · cases semicolon

/-- The line break that closes a comment is kept. -/
theorem keeps_line_iff {before semis after : List Char} (blanks : ∀ c ∈ before, Text.isBlank c)
    (allSemis : ∀ c ∈ semis, c = ';') (allBlanks : ∀ c ∈ after, Text.isBlank c) :
    (endsInComment (value ++ semis) → endsInComment (before ++ (value ++ (semis ++ after)))) ↔
      (endsInComment value → '\n' ∉ after) := by
  rw [endsInComment_blanks_append blanks, ← List.append_assoc,
    endsInComment_append_semicolons allSemis]
  refine imp_congr_right fun comment => endsInComment_append_blanks allBlanks ?_
  rwa [endsInComment_append_semicolons allSemis]

end Body

/-! ## The function -/

def closing : Token := placed (.rightBrace, "\x7d")

theorem cut_closing : Cut ('\n' :: "\x7d".toList) [closing.spelling] := by
  have brace : "\x7d".toList = ['\x7d'] := by decide
  rw [brace]
  exact .blank_cons (by decide +kernel) (.delimiter_cons (by decide) .nil)

section Function

variable {name : String} {params : List String} {source : String} {text : List Char}
  {ts : List Token} {ss : List Stmt} (isName : IsName name)
  (areNames : ∀ p ∈ params, IsName p)
  (spelled : source.toList = headText name params ++ text ++ "\x7d".toList)
include isName areNames spelled

theorem cut_function (cut : Cut (text ++ "\x7d".toList) (ts.map spelling)) :
    Cut source.toList (((headPieces name params).map placed ++ ts).map spelling) := by
  rw [spelled, List.append_assoc, List.map_append, map_spelling_placed]
  exact cut_headText isName areNames cut

/-- A function is read with the statement that the text in it is read to. -/
theorem read_function {s : Stmt} (cut : Cut (text ++ "\x7d".toList) (ts.map spelling))
    (inner : Statement ts s [closing]) :
    (Script.ofSource source).diagnostics = [] ∧ (Script.ofSource source).program.erase =
      Program.erase [.function default name params [s] {}] := by
  have head := functionHead_placed name params ts
  have derives : Derives _ [.function default name params [s] {}] :=
    .cons (.function head (.cons inner .nil) (.brace (terminal_placed _ _ _))) .nil
  exact (Script.read_of_cut (cut_function isName areNames spelled cut)).mpr
    (Script.topLevel_complete derives)

/-- Where a function starts with an expression statement, the text in it starts like one and has a
semicolon. -/
theorem first_expression {pos : Position} {e : Expr}
    (cut : Cut (text ++ "\x7d".toList) (ts.map spelling))
    (read : (Script.ofSource source).diagnostics = [] ∧ (Script.ofSource source).program.erase =
      Program.erase [.function default name params (.expression pos e :: ss) {}]) :
    (∀ t ∈ ts.head?, t.kind.inExpression ∨ t.kind = .semicolon) ∧
      ∃ t ∈ ts, t.kind = .semicolon := by
  obtain ⟨program, read, same⟩ :=
    (Script.read_of_cut (cut_function isName areNames spelled cut)).mp read
  obtain ⟨s, mid, first, like⟩ :=
    Parse.exists_statement (functionHead_placed name params ts) read same
  cases s with
  | expression pos' e' =>
      obtain ⟨front, semi, rfl, tokens⟩ := Parse.exists_expression first
      exact ⟨tokens.head? mid, semi, by simp, tokens.kind⟩
  | varDecl | returning | branch | whileLoop | forLoop | block | function | classDecl
  | property => cases like

end Function

section Statement

variable {name : String} {params : List String} {source : String} {value : List Char} {e : Expr}
  {pos : Position} (isName : IsName name) (areNames : ∀ p ∈ params, IsName p)
include isName areNames

/-- A return statement is no expression statement. -/
theorem not_read_returnText
    (spelled : source.toList = headText name params ++ returnText value ++ "\x7d".toList) :
    ¬ ((Script.ofSource source).diagnostics = [] ∧ (Script.ofSource source).program.erase =
      Program.erase [.function default name params [.expression pos e] {}]) := by
  intro read
  obtain ⟨pieces, -, rest⟩ := cut_scanFrom .start
    (Text.dropEndWhile (· = ';') (Text.trim value) ++ ';' :: '\n' :: "\x7d".toList)
  have text := cut_returnText rest
  rw [← map_spelling_placed (_ :: pieces)] at text
  have first := (first_expression isName areNames spelled text read).1 _ rfl
  rcases first with inner | semicolon
  · cases inner
  · cases semicolon

/-- An expression statement is read to the expression as long as its semicolon does not come to
stand in a comment. -/
theorem read_plainText_iff {front : List Token} {semi : Token} {semis after : List Char}
    (spelled : source.toList = headText name params ++ plainText value ++ "\x7d".toList)
    (tokens : ExpressionTokens front semi e) (allSemis : ∀ c ∈ semis, c = ';')
    (allBlanks : ∀ c ∈ after, Text.isBlank c)
    (cut : Cut (Text.dropEndWhile (· = ';') value ++ (semis ++ (after ++ [';'])))
      (front.map spelling ++ [(.semicolon, semi.lexeme)])) :
    (Script.ofSource source).diagnostics = [] ∧ (Script.ofSource source).program.erase =
        Program.erase [.function default name params [.expression pos e] {}] ↔
      (endsInComment (Text.dropEndWhile (· = ';') value) → '\n' ∉ after) := by
  constructor
  · intro read comment line
    have text := cut_plainText (cut.loses_semicolon allSemis allBlanks cut_closing comment line)
    rw [← List.map_singleton, ← List.map_append] at text
    obtain ⟨t, mem, kind⟩ := (first_expression isName areNames spelled text read).2
    have apart := tokens.ne_semicolon t.spelling
    have inside : t ∈ front := by
      refine (List.mem_append.mp mem).resolve_right fun last => ?_
      rw [List.mem_singleton.mp last] at kind
      cases kind
    exact apart (List.mem_map_of_mem inside) kind
  · intro kept
    have text := cut_plainText
      (cut.keeps_semicolon allSemis allBlanks cut_closing tokens.ne_semicolon kept)
    refine @read_function _ _ _ _ (front ++ [semi, closing]) isName areNames spelled _ ?_ ?_
    · rwa [tokens.map_spelling]
    · exact .expression (.intro (tokens.phrase [closing]) ⟨tokens.kind⟩)

end Statement

theorem isName_of_parameters (params : List Parameter) : ∀ p ∈ params.map (·.name), IsName p :=
  List.forall_mem_map.mpr fun p _ => p.isName

/-- A lambda whose body is a block with one return statement becomes the function of that name with
those parameters and that statement. -/
theorem translates_block_body {name body : String} (isName : IsName name) (params : List Parameter)
    {pos : Position} {e : Expr} (read : Script.ofSource (body ++ ";") = ⟨[.expression pos e], []⟩) :
    let script := Script.ofSource
      (functionSource name (lambdaText params ("\x7b return " ++ body ++ "; \x7d")))
    script.diagnostics = [] ∧ script.program.erase = Program.erase
      [.function default name (params.map (·.name)) [.returning default (some e)] {}] := by
  obtain ⟨front, semi, cut, tokens⟩ := Script.exists_expression read
  obtain ⟨before, semis, blanks, allSemis, whole⟩ := exists_value body.toList
  rw [← List.append_nil semis] at whole
  have kept := (cut_of_blanks tokens cut blanks whole).keeps_semicolon allSemis (by simp)
    cut_closing tokens.ne_semicolon (by simp)
  have spelled := toList_functionSource name params ("\x7b return " ++ body ++ "; \x7d")
  rw [statement_block] at spelled
  have pieces := cut_returnText kept
  refine @read_function _ _ _ _ (placed (.kwReturn, "return") :: (front ++ [semi, closing]))
    isName (isName_of_parameters params) spelled _ ?_ ?_
  · rwa [List.map_cons, tokens.map_spelling]
  · exact .returning (terminal_placed _ _ _) (.present (tokens.phrase [closing]))
      (.semicolon ⟨tokens.kind⟩)

/-- A string in the value that looks like the end of the block, and a comment behind it. -/
theorem translates_block_body_typed :
    let e : Expr := .call ⟨1, 18⟩ (.identifier ⟨1, 1⟩ "print")
      [.identifier ⟨1, 7⟩ "a", .string ⟨1, 10⟩ "\x7d => ;"]
    let script := Script.ofSource
      (functionSource "show" "(a: int) => \x7b return print(a, \"\x7d => ;\") // a\n; \x7d")
    Script.ofSource "print(a, \"\x7d => ;\") // a\n;" = ⟨[.expression ⟨1, 18⟩ e], []⟩ ∧
      script.diagnostics = [] ∧ script.program.erase = Program.erase
        [.function default "show" ["a"] [.returning default (some e)] {}] := by
  intro e script
  have isName : IsName "show" :=
    ⟨⟨'s', "how".toList, by decide, by decide +kernel, List.all_eq_true.mp (by decide +kernel)⟩,
      by decide +kernel⟩
  let a : Parameter :=
    { name := "a", before := [], after := [], type? := some " int".toList
      isName := ⟨⟨'a', [], by decide, by decide +kernel, by simp⟩, by decide +kernel⟩
      blanks := by simp
      plain := by rintro _ ⟨⟩; decide }
  have read : Script.ofSource ("print(a, \"\x7d => ;\") // a\n" ++ ";") =
      ⟨[.expression ⟨1, 18⟩ e], []⟩ := by
    cbv
  have text : lambdaText [a] ("\x7b return " ++ "print(a, \"\x7d => ;\") // a\n" ++ "; \x7d") =
      "(a: int) => \x7b return print(a, \"\x7d => ;\") // a\n; \x7d" := by
    decide +kernel
  have whole := translates_block_body isName [a] read
  rw [text] at whole
  exact ⟨read, whole⟩

/-- A lambda whose body is an expression becomes the function of that name with those parameters and
the expression as a statement, unless the body starts with the letters of `return`, which are taken
for the word, or ends with the line break that closes a comment, which is trimmed off. -/
theorem translates_expression_body_iff {name body : String} (isName : IsName name)
    (params : List Parameter) {pos : Position} {e : Expr}
    (read : Script.ofSource (body ++ ";") = ⟨[.expression pos e], []⟩) :
    let script := Script.ofSource (functionSource name (lambdaText params body))
    (script.diagnostics = [] ∧ script.program.erase = Program.erase
      [.function default name (params.map (·.name)) [.expression default e] {}]) ↔
      ¬ "return".toList <+: Text.trim body.toList ∧
        (endsInComment (Text.trim body.toList) → endsInComment body.toList) := by
  obtain ⟨front, semi, cut, tokens⟩ := Script.exists_expression read
  obtain ⟨before, after, blanks, allBlanks, whole⟩ := Text.exists_trim body.toList
  have spelled := toList_functionSource name params body
  rw [statement_expression (head?_trim_ne tokens cut)] at spelled
  have areNames := isName_of_parameters params
  by_cases isReturn : "return".toList <+: Text.trim body.toList
  · rw [if_pos isReturn] at spelled
    exact iff_of_false (not_read_returnText isName areNames spelled) fun kept => kept.1 isReturn
  · rw [if_neg isReturn] at spelled
    obtain ⟨semis, allSemis, trimmed⟩ :=
      Text.exists_dropEndWhile_append (· = ';') (Text.trim body.toList)
    replace allSemis : ∀ c ∈ semis, c = ';' := by simpa using allSemis
    have text := whole
    rw [trimmed, List.append_assoc] at text
    have kept_iff := @keeps_line_iff (Text.dropEndWhile (· = ';') (Text.trim body.toList)) _ _ _
      blanks allSemis allBlanks
    rw [← text, ← trimmed] at kept_iff
    rw [and_iff_right isReturn, kept_iff]
    exact read_plainText_iff isName areNames spelled tokens allSemis allBlanks
      (cut_of_blanks tokens cut blanks text)

/-- A name that starts with the letters of `return`, a comment that is closed behind the value, and
one that is not. -/
theorem translates_expression_body_returned :
    let translated (body word : String) :=
      let script := Script.ofSource (functionSource "f" ("() => " ++ body))
      script.diagnostics = [] ∧ script.program.erase = Program.erase
        [.function default "f" [] [.expression default (.identifier ⟨1, 1⟩ word)] {}]
    ¬ translated "returned" "returned" ∧ ¬ translated "x // y\n" "x" ∧
      translated "x; // y" "x" := by
  intro translated
  have isName : IsName "f" :=
    ⟨⟨'f', [], by decide, by decide +kernel, by simp⟩, by decide +kernel⟩
  have of_read {body word : String} (read : Script.ofSource (body ++ ";") =
      ⟨[.expression ⟨1, 1⟩ (.identifier ⟨1, 1⟩ word)], []⟩) : translated body word ↔ _ :=
    translates_expression_body_iff isName [] read
  refine ⟨?_, ?_, ?_⟩
  · rw [of_read (by cbv)]
    exact fun kept => kept.1 (by decide +kernel)
  · rw [of_read (by cbv)]
    exact fun kept => absurd (kept.2 (by decide +kernel)) (by decide +kernel)
  · rw [of_read (by cbv)]
    exact ⟨by decide +kernel, fun _ => by decide +kernel⟩

end Lambda

end Scriptlet
