import Scriptlet.Proofs.Completeness.Statement
import Scriptlet.Proofs.Syntax.Marks
import Scriptlet.Proofs.Syntax.WellFormed

/-! # Reading what was written

The marks of a well-formed tree, however they are spelled, derive that tree. With the parser's
completeness, a program that is written and read again is the same up to places. -/

namespace Scriptlet.Grammar

variable {ts rest : List Token}

/-! ## Expressions -/

theorem Stratum.eq_of_rank_eq {p q : Stratum} (h : p.rank = q.rank) : p = q := by
  cases p <;> cases q <;> first | rfl | cases h

theorem Stratum.rank_tighter {p q : Stratum} (h : p.rank < q.rank) :
    p.tighter.rank = p.rank + 1 := by
  cases p <;> first | rfl | (cases q <;> simp [Stratum.rank] at h)

/-- A phrase of a tight stratum is a phrase of every looser one. -/
theorem Phrase.loosen {p q : Stratum} {e : Expr} (h : p.rank ≤ q.rank)
    (d : Phrase q ts e rest) : Phrase p ts e rest := by
  induction gap : q.rank - p.rank generalizing p with
  | zero =>
      obtain rfl : p = q := Stratum.eq_of_rank_eq (by omega)
      exact d
  | succ gap ih =>
      have next : p.tighter.rank = p.rank + 1 := Stratum.rank_tighter (q := q) (by omega)
      exact .tighter (ih (by omega) (by omega))

theorem Phrase.of_enclosed {p q : Stratum} {e : Expr} {ms : List Mark}
    (inner : ∀ ts rest, Spelled ms ts rest → Phrase q ts e rest)
    (h : Spelled (enclosed p q ms) ts rest) : Phrase p ts e rest := by
  unfold enclosed at h
  split at h
  case isTrue =>
      simp only [List.cons_append, spelled_sign, spelled_append, spelled_nil,
        exists_eq_right] at h
      obtain ⟨a, opening, b, h, closing⟩ := h
      have whole : Phrase .assignment a e b := (inner a b h).loosen (Nat.zero_le _)
      have primary : Phrase .primary ts e rest := .group opening whole closing
      exact primary.loosen (by cases p <;> decide)
  case isFalse fits => exact (inner ts rest h).loosen (Nat.le_of_not_lt fits)

mutual

/-- The marks of an expression derive it at its stratum. -/
theorem Phrase.of_marks : ∀ (e : Expr) {ts rest : List Token}, e.isWellFormed →
    Spelled e.marks ts rest → Phrase e.stratum ts e rest
  | .number _ value, _, _, _, h => by
      obtain ⟨t, _, rfl, ⟨hk, hv⟩, rfl⟩ := h
      exact .number hk hv
  | .string _ value, _, _, _, h => by
      obtain ⟨t, _, rfl, ⟨hk, rfl⟩, rfl⟩ := h
      exact .string hk
  | .bool _ true, _, _, _, h => .yes (by simpa [Expr.marks] using h)
  | .bool _ false, _, _, _, h => .no (by simpa [Expr.marks] using h)
  | .null _, _, _, _, h => .null (by simpa [Expr.marks] using h)
  | .identifier _ name, _, _, _, h => by
      obtain ⟨t, _, rfl, spelling, rfl⟩ := h
      rcases spelling with ⟨hk, rfl⟩ | ⟨hk, rfl⟩
      · exact .name ⟨hk⟩
      · exact .this ⟨hk⟩
  | .binary _ op left right, _, _, wellFormed, h => by
      simp only [Expr.isWellFormed, Bool.and_eq_true] at wellFormed
      simp only [Expr.marks, spelled_append, spelled_sign] at h
      obtain ⟨a, hl, b, sign, hr⟩ := h
      exact .operation rfl (.of_enclosed (fun _ _ => Phrase.of_marks left wellFormed.1) hl) sign
        (.of_enclosed (fun _ _ => Phrase.of_marks right wellFormed.2) hr)
  | .unary _ op operand, _, _, wellFormed, h => by
      simp only [Expr.marks, spelled_sign] at h
      obtain ⟨a, sign, h⟩ := h
      exact .unary sign (.of_enclosed (fun _ _ => Phrase.of_marks operand wellFormed) h)
  | .call _ callee args, _, _, wellFormed, h => by
      simp only [Expr.isWellFormed, Bool.and_eq_true] at wellFormed
      simp only [Expr.marks, List.append_assoc, List.cons_append, spelled_append, spelled_sign,
        spelled_nil, exists_eq_right] at h
      obtain ⟨a, hc, b, opening, c, ha, closing⟩ := h
      have callee : Phrase .call _ callee a :=
        .of_enclosed (fun _ _ => Phrase.of_marks callee wellFormed.1) hc
      by_cases hargs : args = []
      · subst hargs
        obtain rfl : b = c := ha
        exact .emptyCall callee opening closing
      · exact .call callee opening (Arguments.of_marks args hargs wellFormed.2 ha) closing
  | .member _ object name, _, _, wellFormed, h => by
      simp only [Expr.marks, spelled_append, spelled_sign, spelled_name, spelled_nil,
        exists_eq_right] at h
      obtain ⟨a, ho, b, sign, named⟩ := h
      exact .member (.of_enclosed (fun _ _ => Phrase.of_marks object wellFormed) ho) sign named
  | .assign _ op target value, _, _, wellFormed, h => by
      simp only [Expr.isWellFormed, Bool.and_eq_true] at wellFormed
      simp only [Expr.marks, spelled_append, spelled_sign] at h
      obtain ⟨⟨isTarget, wellFormed⟩, wellFormed'⟩ := wellFormed
      obtain ⟨a, ht, b, sign, hv⟩ := h
      exact .assign (.of_enclosed (fun _ _ => Phrase.of_marks target wellFormed) ht) isTarget sign
        (.of_enclosed (fun _ _ => Phrase.of_marks value wellFormed') hv)

theorem Arguments.of_marks : ∀ (es : List Expr) {ts rest : List Token}, es ≠ [] →
    Expr.areWellFormed es → Spelled (separated (Expr.marksEach es)) ts rest →
    Arguments ts es rest
  | [e], _, _, _, wellFormed, h => by
      simp only [Expr.areWellFormed, Bool.and_true] at wellFormed
      exact .one ((Phrase.of_marks e wellFormed h).loosen (Nat.zero_le _))
  | e :: next :: es, _, _, _, wellFormed, h => by
      rw [Expr.areWellFormed, Bool.and_eq_true] at wellFormed
      simp only [Expr.marksEach, separated, spelled_append, spelled_sign] at h
      obtain ⟨a, he, b, comma, h⟩ := h
      exact .more ((Phrase.of_marks e wellFormed.1 he).loosen (Nat.zero_le _)) comma
        (Arguments.of_marks (next :: es) (List.cons_ne_nil _ _) wellFormed.2 h)

end

theorem Expression.of_marks {e : Expr} (wellFormed : e.isWellFormed)
    (h : Spelled e.marks ts rest) : Expression ts e rest :=
  (Phrase.of_marks e wellFormed h).loosen (Nat.zero_le _)

/-! ## Parts of statements -/

theorem Optional.of_marks {e : Option Expr} (wellFormed : e.all Expr.isWellFormed)
    (h : Spelled (Stmt.optionalMarks e) ts rest) : Optional ts e rest := by
  cases e with
  | none =>
      obtain rfl : ts = rest := h
      exact .absent
  | some e => exact .present (.of_marks wellFormed h)

theorem Initializer.of_marks {e : Option Expr} (wellFormed : e.all Expr.isWellFormed)
    (h : Spelled (Stmt.initializerMarks e) ts rest) : Initializer ts e rest := by
  cases e with
  | none =>
      obtain rfl : ts = rest := h
      exact .absent
  | some e =>
      obtain ⟨a, sign, h⟩ := spelled_sign.mp h
      exact .present sign (.of_marks wellFormed h)

theorem Condition.of_marks {e : Expr} (wellFormed : e.isWellFormed)
    (h : Spelled (Stmt.conditionMarks e) ts rest) : Condition ts e rest := by
  simp only [Stmt.conditionMarks, List.cons_append, spelled_sign, spelled_append, spelled_nil,
    exists_eq_right] at h
  obtain ⟨a, opening, b, h, closing⟩ := h
  exact .intro opening (.of_marks wellFormed h) closing

theorem Parameters.of_marks {params : List String} (some : params ≠ [])
    (h : Spelled (separated (params.map fun param => [.name param])) ts rest) :
    Parameters ts params rest := by
  induction params generalizing ts with
  | nil => exact absurd rfl some
  | cons name names ih =>
      cases names with
      | nil => exact .one (by simpa [separated] using h)
      | cons next names =>
          simp only [List.map_cons, separated, spelled_append, spelled_name, spelled_sign,
            spelled_nil, exists_eq_right] at h
          obtain ⟨a, named, b, comma, h⟩ := h
          exact .more named comma (ih (List.cons_ne_nil _ _) h)

/-- A function from its keyword to the brace that opens its body. -/
theorem FunctionHead.of_marks {name : String} {params : List String} {a b c d e : List Token}
    (keyword : Terminal .kwFunction ts a) (named : Named name a b)
    (opening : Terminal .leftParen b c)
    (h : Spelled (separated (params.map fun param => [.name param])) c d)
    (closing : Terminal .rightParen d e) (brace : Terminal .leftBrace e rest) :
    FunctionHead ts name params rest := by
  by_cases hp : params = []
  · subst hp
    obtain rfl : c = d := h
    exact .nullary keyword named opening closing brace
  · exact .intro keyword named opening (.of_marks hp h) closing brace

theorem Modified.of_marks {modifiers : Modifiers}
    (one : (modifiers.isStatic && modifiers.isPublic) = false)
    (h : Spelled modifiers.marks ts rest) : Modified ts modifiers rest := by
  obtain ⟨isStatic, isPublic⟩ := modifiers
  cases isStatic with
  | true =>
      obtain rfl : isPublic = false := one
      exact .isStatic (by simpa [Modifiers.marks] using h)
  | false =>
      cases isPublic with
      | true => exact .isPublic (by simpa [Modifiers.marks] using h)
      | false =>
          obtain rfl : ts = rest := h
          exact .absent

theorem VarDecl.of_marks {pos : Position} {name : String} {value : Option Expr}
    (wellFormed : value.all Expr.isWellFormed)
    (h : Spelled (Stmt.varDecl pos name value).marks ts rest) :
    VarDecl ts (.varDecl pos name value) rest := by
  simp only [Stmt.marks, List.cons_append, spelled_sign, spelled_name, spelled_append, spelled_nil,
    exists_eq_right] at h
  obtain ⟨a, keyword, b, named, c, h, close⟩ := h
  exact .intro keyword named (.of_marks wellFormed h) close

theorem ExpressionStmt.of_marks {pos : Position} {e : Expr} (wellFormed : e.isWellFormed)
    (h : Spelled (Stmt.expression pos e).marks ts rest) :
    ExpressionStmt ts (.expression pos e) rest := by
  simp only [Stmt.marks, spelled_sign, spelled_append, spelled_nil, exists_eq_right] at h
  obtain ⟨a, h, close⟩ := h
  exact .intro (.of_marks wellFormed h) close

theorem LoopStart.of_marks {s : Option Stmt} (start : s.all Stmt.isLoopStart)
    (wellFormed : Stmt.isWellFormedOption s) (h : Spelled (Stmt.loopStartMarks s) ts rest) :
    LoopStart ts s rest := by
  match s with
  | none => exact .absent (by simpa [Stmt.loopStartMarks] using h)
  | some (.varDecl ..) => exact .varDecl (.of_marks wellFormed h)
  | some (.expression ..) => exact .expression (.of_marks wellFormed h)

/-! ## Statements -/

def NoElse (ts : List Token) : Prop :=
  ∀ after, ¬ Terminal .kwElse ts after

theorem noElse_of_terminal {kind : TokenKind} (h : Terminal kind ts rest)
    (other : kind ≠ .kwElse) : NoElse ts := by
  rintro after ⟨hk⟩
  obtain ⟨hk'⟩ := h
  exact other (hk' ▸ hk)

theorem Statement.noElse {s : Stmt} (d : Statement ts s rest) : NoElse ts := by
  rintro after ⟨hk⟩
  obtain ⟨t, ht, -, other⟩ := d.starts
  obtain rfl := Option.some.inj ht
  exact other hk

theorem Statements.noElse {ss : List Stmt} (d : Statements ts ss rest) (h : NoElse rest) :
    NoElse ts := by
  cases d with
  | nil => exact h
  | cons d => exact d.noElse

mutual

/-- The marks of a statement derive it, unless its last branch takes an `else` that follows. -/
theorem Statement.of_marks : ∀ (s : Stmt) {ts rest : List Token}, s.isWellFormed → s.keepsElse →
    (s.takesElse → NoElse rest) → Spelled s.marks ts rest → Statement ts s rest
  | .expression _ e, _, _, wellFormed, _, _, h => .expression (.of_marks wellFormed h)
  | .varDecl _ name value, _, _, wellFormed, _, _, h => .varDecl (.of_marks wellFormed h)
  | .returning _ value, _, _, wellFormed, _, _, h => by
      simp only [Stmt.marks, List.cons_append, spelled_sign, spelled_append, spelled_nil,
        exists_eq_right] at h
      obtain ⟨a, keyword, b, h, close⟩ := h
      exact .returning keyword (.of_marks wellFormed h) (.semicolon close)
  | .branch _ test s none, _, _, wellFormed, keeps, noElse, h => by
      simp only [Stmt.isWellFormed, Stmt.isWellFormedOption, Bool.and_true,
        Bool.and_eq_true] at wellFormed
      simp only [Stmt.keepsElse, Stmt.keepsElseOption, Option.isNone_none, Bool.true_or,
        Bool.true_and, Bool.and_true] at keeps
      simp only [Stmt.marks, Stmt.alternativeMarks, List.append_nil, List.cons_append, spelled_sign,
        spelled_append] at h
      obtain ⟨a, keyword, b, ht, hs⟩ := h
      exact .branch keyword (.of_marks wellFormed.1 ht)
        (Statement.of_marks s wellFormed.2 keeps (fun _ => noElse rfl) hs) (noElse rfl)
  | .branch _ test s (some other), _, _, wellFormed, keeps, noElse, h => by
      simp only [Stmt.isWellFormed, Stmt.isWellFormedOption, Bool.and_eq_true] at wellFormed
      simp only [Stmt.keepsElse, Stmt.keepsElseOption, Option.isNone_some, Bool.false_or,
        Bool.and_eq_true, Bool.not_eq_true'] at keeps
      simp only [Stmt.marks, Stmt.alternativeMarks, List.append_assoc, List.cons_append,
        spelled_sign, spelled_append] at h
      obtain ⟨⟨wellFormedTest, wellFormed⟩, wellFormed'⟩ := wellFormed
      obtain ⟨⟨free, keeps⟩, keeps'⟩ := keeps
      obtain ⟨a, keyword, b, ht, c, hs, d, word, ho⟩ := h
      exact .branchElse keyword (.of_marks wellFormedTest ht)
        (Statement.of_marks s wellFormed keeps (fun takes => by simp [free] at takes) hs) word
        (Statement.of_marks other wellFormed' keeps' noElse ho)
  | .whileLoop _ test body, _, _, wellFormed, keeps, noElse, h => by
      simp only [Stmt.isWellFormed, Bool.and_eq_true] at wellFormed
      simp only [Stmt.marks, List.cons_append, spelled_sign, spelled_append] at h
      obtain ⟨a, keyword, b, ht, hs⟩ := h
      exact .whileLoop keyword (.of_marks wellFormed.1 ht)
        (Statement.of_marks body wellFormed.2 keeps noElse hs)
  | .forLoop _ start test step body, _, _, wellFormed, keeps, noElse, h => by
      simp only [Stmt.isWellFormed, Bool.and_eq_true] at wellFormed
      simp only [Stmt.marks, List.append_assoc, List.cons_append, spelled_sign,
        spelled_append] at h
      obtain ⟨⟨⟨⟨isStart, wellFormedStart⟩, wellFormedTest⟩, wellFormedStep⟩, wellFormed⟩ :=
        wellFormed
      obtain ⟨a, keyword, b, opening, c, hi, d, ht, e, close, f, hs, g, closing, hb⟩ := h
      exact .forLoop keyword
        (.intro opening (.of_marks isStart wellFormedStart hi) (.of_marks wellFormedTest ht) close
          (.of_marks wellFormedStep hs) closing)
        (Statement.of_marks body wellFormed keeps noElse hb)
  | .block _ body, _, _, wellFormed, keeps, _, h => by
      simp only [Stmt.marks, List.cons_append, spelled_sign, spelled_append, spelled_nil,
        exists_eq_right] at h
      obtain ⟨a, brace, b, h, close⟩ := h
      exact .block brace
        (Statements.of_marks body wellFormed keeps (noElse_of_terminal close (by decide)) h)
        (.brace close)
  | .function _ name params body modifiers, _, _, wellFormed, keeps, _, h => by
      simp only [Stmt.isWellFormed, Bool.and_eq_true, decide_eq_true_eq] at wellFormed
      obtain ⟨rfl, wellFormed⟩ := wellFormed
      simp only [Stmt.marks, Modifiers.marks, List.append_assoc, List.cons_append, spelled_sign,
        spelled_name, spelled_append, spelled_nil, exists_eq_right] at h
      obtain ⟨a, rfl, b, keyword, c, named, d, opening, e, hp, f, closing, g, brace, i, h, close⟩ :=
        h
      exact .function (.of_marks keyword named opening hp closing brace)
        (Statements.of_marks body wellFormed keeps (noElse_of_terminal close (by decide)) h)
        (.brace close)
  | .classDecl _ name members isStatic, _, _, wellFormed, keeps, _, h => by
      simp only [Stmt.marks, List.append_assoc, List.cons_append, spelled_sign, spelled_name,
        spelled_append, spelled_nil, exists_eq_right] at h
      obtain ⟨a, hm, b, keyword, c, named, d, brace, e, h, close⟩ := h
      have members := Members.of_marks members wellFormed keeps h
      cases isStatic with
      | true => exact .classDecl (.isStatic (by simpa using hm) keyword named brace) members close
      | false =>
          obtain rfl : _ = a := hm
          exact .classDecl (.plain keyword named brace) members close

theorem Statements.of_marks : ∀ (ss : List Stmt) {ts rest : List Token}, Stmt.areWellFormed ss →
    Stmt.keepElse ss → NoElse rest → Spelled (Stmt.marksAll ss) ts rest → Statements ts ss rest
  | [], _, _, _, _, _, h => by
      obtain rfl : _ = _ := h
      exact .nil
  | s :: ss, _, _, wellFormed, keeps, noElse, h => by
      rw [Stmt.areWellFormed, Bool.and_eq_true] at wellFormed
      rw [Stmt.keepElse, Bool.and_eq_true] at keeps
      obtain ⟨a, hs, h⟩ := spelled_append.mp h
      have tail := Statements.of_marks ss wellFormed.2 keeps.2 noElse h
      exact .cons (Statement.of_marks s wellFormed.1 keeps.1 (fun _ => tail.noElse noElse) hs) tail

theorem Member.of_marks : ∀ (s : Stmt) {ts rest : List Token}, s.isMember → s.keepsElse →
    Spelled s.marks ts rest → Member ts s rest
  | .function _ name params body modifiers, _, _, wellFormed, keeps, h => by
      simp only [Stmt.isMember, Bool.and_eq_true, Bool.not_eq_true'] at wellFormed
      simp only [Stmt.marks, List.append_assoc, List.cons_append, spelled_sign, spelled_name,
        spelled_append, spelled_nil, exists_eq_right] at h
      obtain ⟨a, hm, b, keyword, c, named, d, opening, e, hp, f, closing, g, brace, i, h, close⟩ :=
        h
      exact .function (.of_marks wellFormed.1 hm)
        (.of_marks keyword named opening hp closing brace)
        (Statements.of_marks body wellFormed.2 keeps (noElse_of_terminal close (by decide)) h)
        (.brace close)
  | .property _ name value modifiers, _, _, wellFormed, _, h => by
      simp only [Stmt.isMember, Bool.and_eq_true, Bool.not_eq_true'] at wellFormed
      simp only [Stmt.marks, List.append_assoc, List.cons_append, spelled_sign, spelled_name,
        spelled_append, spelled_nil, exists_eq_right] at h
      obtain ⟨a, hm, b, named, c, hv, close⟩ := h
      exact .property (.of_marks wellFormed.1 hm)
        (.intro named (.of_marks wellFormed.2 hv) close)

theorem Members.of_marks : ∀ (ss : List Stmt) {ts rest : List Token}, Stmt.areMembers ss →
    Stmt.keepElse ss → Spelled (Stmt.marksAll ss) ts rest → Members ts ss rest
  | [], _, _, _, _, h => by
      obtain rfl : _ = _ := h
      exact .nil
  | s :: ss, _, _, wellFormed, keeps, h => by
      rw [Stmt.areMembers, Bool.and_eq_true] at wellFormed
      rw [Stmt.keepElse, Bool.and_eq_true] at keeps
      obtain ⟨a, hs, h⟩ := spelled_append.mp h
      exact .cons (Member.of_marks s wellFormed.1 keeps.1 hs)
        (Members.of_marks ss wellFormed.2 keeps.2 h)

end

end Scriptlet.Grammar

/-! ## Programs -/

namespace Scriptlet.Script

open Grammar

theorem body_of_spelled {ms : List Mark} {ts : List Token} {last : Token} (endless : Endless ms)
    (h : Spelled ms ts []) (ends : last.kind = .endOfInput) : body (ts ++ [last]) = ts := by
  induction ms generalizing ts with
  | nil =>
      obtain rfl : ts = [] := h
      simp [body, ends]
  | cons m ms ih =>
      obtain ⟨t, after, rfl, spelling, h⟩ := h
      rw [endless_cons] at endless
      have inside : t.kind ≠ .endOfInput := by
        rintro hk
        cases m <;> simp_all [Mark.SpelledBy, Mark.isEnd]
      have := ih endless.2 h
      simp_all [body]

/-- A program that is written, whatever the spelling of its literals, and closed by the end mark is
read without a diagnostic and as it was, up to places. -/
theorem ofTokens_marks {program : Program} {ts : List Token} {last : Token}
    (wellFormed : program.isWellFormed) (keeps : program.keepsElse)
    (spelled : Spelled program.marks ts []) (ends : last.kind = .endOfInput) :
    (ofTokens (ts ++ [last])).diagnostics = [] ∧
      (ofTokens (ts ++ [last])).program.erase = program.erase := by
  have noElse : NoElse [] := by
    rintro after ⟨⟩
  have derived : Derives ts program := Statements.of_marks program wellFormed keeps noElse spelled
  rw [← body_of_spelled (Stmt.endless_marksAll program) spelled ends] at derived
  exact ofTokens_complete derived

/-- An `else` behind a block that ends in a branch without one, and parentheses on both sides. -/
theorem ofTokens_marks_nested :
    let p : Position := default
    let number (value : Float) := Expr.number p value
    let name (text : String) := Expr.identifier p text
    let program : Program :=
      [.branch p (name "a")
        (.block p [.whileLoop p (name "b") (.branch p (name "c") (.returning p none) none)])
        (some (.expression p (.assign p .set (name "d") (.assign p .add (.member p (name "e") "f")
          (.binary p .sub (number 1) (.binary p .sub (number 2) (.unary p .negate (number 3)))))))),
       .classDecl p "K"
        [.function p "m" ["u", "v"] [] { isStatic := true },
         .property p "w"
          (some (.call p (.binary p .or (name "this") (name "x")) [.string p "y"])) {}]
        true]
    let ts := (Token.scan
      ("if (a) \x7b while (b) if (c) return; \x7d else d = e.f += 1 - (2 - -3);" ++
       "static class K \x7b static function m(u, v) \x7b \x7d " ++
       "w = (this || x)(\"y\"); \x7d")).dropLast
    (program.isWellFormed ∧ program.keepsElse ∧ Spelled program.marks ts []) ∧
      (ofTokens (ts ++ [⟨.endOfInput, "", p⟩])).diagnostics = [] ∧
      (ofTokens (ts ++ [⟨.endOfInput, "", p⟩])).program.erase = program.erase := by
  intro p number name program ts
  have wellFormed : program.isWellFormed := by decide
  have keeps : program.keepsElse := by decide
  have spelled : Spelled program.marks ts [] := by decide +kernel
  exact ⟨⟨wellFormed, keeps, spelled⟩, ofTokens_marks wellFormed keeps spelled rfl⟩

end Scriptlet.Script
