import Scriptlet.Proofs.Completeness.Expression
import Scriptlet.Proofs.Grammar.Statement

/-! # Completeness of the rules for parts of statements

Each part is read, up to places, in front of the token that has to follow it. -/

namespace Scriptlet.Grammar

open Parse

variable {ts rest : List Token}

theorem Terminal.startsWith {kind : TokenKind} (h : Terminal kind ts rest) :
    startsWith kind ts = true := by
  obtain ⟨hk⟩ := h
  simp [Parse.startsWith, hk]

theorem Optional.read {closing : TokenKind} {value : Option Expr} {after : List Token}
    (d : Optional ts value rest) (close : Terminal closing rest after)
    (closes : closing.continues? = none) (starts : Stratum.assignment.starts closing = false) :
    ∃ value', value'.map Expr.erase = value.map Expr.erase ∧
      (loopClause closing ts).read? = some (value', rest) := by
  unfold loopClause
  cases d with
  | absent => exact ⟨none, rfl, by rw [close.startsWith]; rfl⟩
  | present d =>
      obtain ⟨e', same, read⟩ := Expression.read d (.of_terminal _ close closes)
      refine ⟨some e', by simp [same], ?_⟩
      rw [startsWith_of_starts d.starts starts]
      simpa using read

theorem Initializer.read {value : Option Expr} {after : List Token}
    (d : Initializer ts value rest) (close : Terminal .semicolon rest after) :
    ∃ value', value'.map Expr.erase = value.map Expr.erase ∧
      (initializer ts).read? = some (value', rest) := by
  cases d with
  | absent =>
      obtain @⟨t, after, hk⟩ := close
      have equal : t.kind ≠ .equal := by
        rw [hk]
        decide
      exact ⟨none, rfl, by rw [initializer, if_neg equal]; rfl⟩
  | present sign d =>
      obtain @⟨t, a, hk⟩ := sign
      obtain ⟨e', same, read⟩ := Expression.read d (.of_terminal _ close rfl)
      exact ⟨some e', by simp [same], by simpa [initializer, hk] using read⟩

theorem VarDecl.read {s : Stmt} (d : VarDecl ts s rest) :
    ∃ t a, ts = t :: a ∧ t.kind = .kwVar ∧
      ∃ s', s'.erase = s.erase ∧ (varDeclaration t.pos a).read? = some (s', rest) := by
  obtain ⟨keyword, named, value, close⟩ := d
  obtain ⟨value', same, read⟩ := value.read close
  obtain @⟨t, a, hk⟩ := keyword
  obtain @⟨word, b, hw⟩ := named
  obtain @⟨semicolon, rest, hs⟩ := close
  refine ⟨t, _, rfl, hk, .varDecl t.pos word.lexeme value', by simp [Stmt.erase, same], ?_⟩
  simp only [varDeclaration, Parsed.read?_andThen, Parsed.read?_succ, Parsed.read?_map,
    read?_expect]
  exact ⟨word, _, Nat.lt_succ_self _, ⟨rfl, hw⟩, value', _, Parsed.length_lt_of_read? read, read,
    semicolon, ⟨rfl, hs⟩, rfl⟩

theorem ExpressionStmt.read {s : Stmt} (d : ExpressionStmt ts s rest) :
    ∃ s', s'.erase = s.erase ∧ (expressionStatement ts).read? = some (s', rest) := by
  obtain ⟨d, close⟩ := d
  obtain ⟨e', same, read⟩ := Expression.read d (.of_terminal _ close rfl)
  obtain @⟨semicolon, rest, hs⟩ := close
  refine ⟨.expression e'.pos e', by simp [Stmt.erase, same], ?_⟩
  simp only [expressionStatement, Parsed.read?_andThen, Parsed.read?_succ, Parsed.read?_map,
    read?_expect]
  exact ⟨e', _, Parsed.length_lt_of_read? read, read, semicolon, ⟨rfl, hs⟩, rfl⟩

theorem ExpressionStmt.starts {s : Stmt} (d : ExpressionStmt ts s rest) :
    ∃ t ∈ ts.head?, Stratum.assignment.starts t.kind := by
  obtain ⟨d, -⟩ := d
  exact d.starts

theorem Property.read {s : Stmt} {modifiers : Modifiers} (d : Property modifiers ts s rest) :
    ∃ s', s'.erase = s.erase ∧ (property modifiers ts).read? = some (s', rest) := by
  obtain ⟨named, value, close⟩ := d
  obtain ⟨value', same, read⟩ := value.read close
  obtain @⟨word, b, hw⟩ := named
  obtain @⟨semicolon, rest, hs⟩ := close
  refine ⟨.property word.pos word.lexeme value' modifiers, by simp [Stmt.erase, same], ?_⟩
  simp only [property, Parsed.read?_andThen, Parsed.read?_succ, Parsed.read?_map, read?_expect]
  exact ⟨word, _, Nat.lt_succ_self _, ⟨rfl, hw⟩, value', _, Parsed.length_lt_of_read? read, read,
    semicolon, ⟨rfl, hs⟩, rfl⟩

theorem Parameters.read {names : List String} {after : List Token}
    (d : Parameters ts names rest) (close : Terminal .rightParen rest after) :
    (parameterNames ts).read? = some (names, rest) := by
  induction d with
  | one named =>
      obtain @⟨word, rest, hw⟩ := named
      obtain @⟨paren, after, hp⟩ := close
      have comma : paren.kind ≠ .comma := by
        rw [hp]
        decide
      rw [parameterNames]
      simp only [Parsed.read?_andThen, read?_expect]
      refine ⟨word, _, Nat.lt_succ_self _, ⟨rfl, hw⟩, ?_⟩
      dsimp only
      rw [if_neg comma]
      rfl
  | more named comma d ih =>
      obtain @⟨word, a, hw⟩ := named
      obtain @⟨t, b, hk⟩ := comma
      rw [parameterNames]
      simp only [Parsed.read?_andThen, read?_expect]
      refine ⟨word, _, Nat.lt_succ_self _, ⟨rfl, hw⟩, ?_⟩
      dsimp only
      rw [if_pos hk]
      simpa using ih close

theorem Parameters.starts {names : List String} (d : Parameters ts names rest) :
    startsWith .rightParen ts = false := by
  cases d with
  | one named =>
      obtain ⟨hw⟩ := named
      simp [startsWith, hw]
  | more named =>
      obtain ⟨hw⟩ := named
      simp [startsWith, hw]

theorem FunctionHead.read {name : String} {params : List String}
    (d : FunctionHead ts name params rest) :
    ∃ t a, ts = t :: a ∧ t.kind = .kwFunction ∧
      ∃ word : Token, word.lexeme = name ∧
        (functionHead a).read? = some ((word, params), rest) := by
  cases d with
  | nullary keyword named left right brace =>
      obtain @⟨t, _, hk⟩ := keyword
      obtain @⟨word, _, hw⟩ := named
      obtain @⟨opening, _, ho⟩ := left
      obtain @⟨closing, _, hc⟩ := right
      obtain @⟨body, _, hb⟩ := brace
      refine ⟨t, _, rfl, hk, word, rfl, ?_⟩
      simp only [functionHead, Parsed.read?_andThen, Parsed.read?_succ, Parsed.read?_map,
        read?_expect]
      exact ⟨word, _, Nat.lt_succ_self _, ⟨rfl, hw⟩, opening, _, Nat.lt_succ_self _, ⟨rfl, ho⟩, [],
        _, Nat.lt_succ_self _, by simp [parameters, startsWith, hc], closing, _,
        Nat.lt_succ_self _, ⟨rfl, hc⟩, body, ⟨rfl, hb⟩, rfl⟩
  | intro keyword named left names right brace =>
      have read := names.read right
      have starts := names.starts
      obtain @⟨t, _, hk⟩ := keyword
      obtain @⟨word, _, hw⟩ := named
      obtain @⟨opening, _, ho⟩ := left
      obtain @⟨closing, _, hc⟩ := right
      obtain @⟨body, _, hb⟩ := brace
      have shorter := Parsed.length_lt_of_read? read
      refine ⟨t, _, rfl, hk, word, rfl, ?_⟩
      simp only [functionHead, Parsed.read?_andThen, Parsed.read?_succ, Parsed.read?_map,
        read?_expect]
      exact ⟨word, _, Nat.lt_succ_self _, ⟨rfl, hw⟩, opening, _, Nat.lt_succ_self _, ⟨rfl, ho⟩,
        params, _, Nat.lt_succ_of_lt shorter, by simpa [parameters, starts] using read, closing, _,
        Nat.lt_succ_self _, ⟨rfl, hc⟩, body, ⟨rfl, hb⟩, rfl⟩

theorem Condition.read (opening closing : Expectation) (ho : opening.kind = .leftParen)
    (hc : closing.kind = .rightParen) {test : Expr} (d : Condition ts test rest) :
    ∃ test', test'.erase = test.erase ∧
      (condition opening closing ts).read? = some (test', rest) := by
  obtain ⟨left, d, right⟩ := d
  obtain ⟨test', same, read⟩ := Expression.read d (.of_terminal _ right rfl)
  obtain @⟨t, a, hl⟩ := left
  obtain @⟨paren, rest, hr⟩ := right
  refine ⟨test', same, ?_⟩
  simp only [condition, Parsed.read?_andThen, Parsed.read?_succ, Parsed.read?_map, read?_expect]
  exact ⟨t, _, Nat.lt_succ_self _, ⟨rfl, hl.trans ho.symm⟩, test', _,
    Parsed.length_lt_of_read? read, read, paren, ⟨rfl, hr.trans hc.symm⟩, rfl⟩

theorem LoopStart.read {start : Option Stmt} (d : LoopStart ts start rest) :
    ∃ start', start'.map Stmt.erase = start.map Stmt.erase ∧
      (loopStart ts).read? = some (start', rest) := by
  cases d with
  | absent close =>
      obtain @⟨semicolon, _, hs⟩ := close
      exact ⟨none, rfl, by simp [loopStart, hs]⟩
  | varDecl d =>
      obtain ⟨t, a, rfl, hk, s', same, read⟩ := d.read
      exact ⟨some s', by simp [same], by simpa [loopStart, hk] using read⟩
  | expression d =>
      obtain ⟨s', same, read⟩ := d.read
      have semicolon : startsWith .semicolon ts = false := startsWith_of_starts d.starts rfl
      have keyword : startsWith .kwVar ts = false := startsWith_of_starts d.starts rfl
      refine ⟨some s', by simp [same], ?_⟩
      cases ts with
      | nil => simpa [loopStart] using read
      | cons t ts =>
          simp only [startsWith, decide_eq_false_iff_not] at semicolon keyword
          simpa [loopStart, semicolon, keyword] using read

theorem LoopHead.read {start : Option Stmt} {test step : Option Expr}
    (d : LoopHead ts start test step rest) :
    ∃ start' test' step', start'.map Stmt.erase = start.map Stmt.erase ∧
      test'.map Expr.erase = test.map Expr.erase ∧ step'.map Expr.erase = step.map Expr.erase ∧
      (loopHead ts).read? = some ((start', test', step'), rest) := by
  obtain ⟨left, first, second, middle, third, right⟩ := d
  obtain ⟨start', sameStart, readStart⟩ := first.read
  obtain ⟨test', sameTest, readTest⟩ := second.read middle rfl rfl
  obtain ⟨step', sameStep, readStep⟩ := third.read right rfl rfl
  obtain @⟨opening, _, ho⟩ := left
  obtain @⟨semicolon, _, hs⟩ := middle
  obtain @⟨closing, _, hc⟩ := right
  refine ⟨start', test', step', sameStart, sameTest, sameStep, ?_⟩
  simp only [loopHead, Parsed.read?_andThen, Parsed.read?_succ, Parsed.read?_map, read?_expect]
  exact ⟨opening, _, Nat.lt_succ_self _, ⟨rfl, ho⟩, start', _, Parsed.length_lt_of_read? readStart,
    readStart, test', _, Parsed.length_lt_of_read? readTest, readTest, semicolon, _,
    Nat.lt_succ_self _, ⟨rfl, hs⟩, step', _, Parsed.length_lt_of_read? readStep, readStep, closing,
    ⟨rfl, hc⟩, rfl⟩

/-- What ends a return statement does not go on with its value. -/
theorem ReturnEnd.stops (d : ReturnEnd ts rest) (p : Stratum) : Stops p ts := by
  cases d with
  | semicolon close => exact .of_terminal p close rfl
  | beforeBrace brace => exact .of_terminal p brace rfl
  | atEnd => exact stops_nil p

theorem ReturnEnd.read (d : ReturnEnd ts rest) : (returnEnd ts).read? = some ((), rest) := by
  cases d with
  | semicolon close =>
      obtain ⟨hs⟩ := close
      simp [returnEnd, hs]
  | beforeBrace brace =>
      obtain ⟨hb⟩ := brace
      simp [returnEnd, hb]
  | atEnd => rfl

theorem Optional.read_return {value : Option Expr} {after : List Token}
    (d : Optional ts value rest) (ending : ReturnEnd rest after) :
    ∃ value', value'.map Expr.erase = value.map Expr.erase ∧
      (returnValue ts).read? = some (value', rest) := by
  unfold returnValue
  cases d with
  | absent =>
      refine ⟨none, rfl, ?_⟩
      cases ending with
      | semicolon close => simp [close.startsWith]
      | beforeBrace brace => simp [brace.startsWith]
      | atEnd => rfl
  | present d =>
      obtain ⟨e', same, read⟩ := Expression.read d (ending.stops _)
      have semicolon : startsWith .semicolon ts = false := startsWith_of_starts d.starts rfl
      have brace : startsWith .rightBrace ts = false := startsWith_of_starts d.starts rfl
      have nonempty : ts.isEmpty = false := by
        obtain ⟨t, ht, -⟩ := d.starts
        cases ts with
        | nil => cases ht
        | cons t ts => rfl
      refine ⟨some e', by simp [same], ?_⟩
      simpa [semicolon, brace, nonempty] using read

theorem BlockEnd.read {α : Type} (value : α) (d : BlockEnd ts rest) :
    (blockEnd value ts).read? = some (value, rest) := by
  cases d with
  | brace close =>
      obtain ⟨hb⟩ := close
      simp [blockEnd]
  | atEnd => rfl

theorem BlockEnd.closes (d : BlockEnd ts rest) : ∀ t ∈ ts.head?, closesBody t := by
  cases d with
  | brace close =>
      obtain ⟨hb⟩ := close
      simp [closesBody, hb]
  | atEnd => simp

end Scriptlet.Grammar
