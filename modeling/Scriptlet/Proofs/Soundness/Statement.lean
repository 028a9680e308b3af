import Scriptlet.Proofs.Grammar.Statement
import Scriptlet.Proofs.Soundness.Expression

/-! # Soundness of the parser

As with expressions, every rule is proved sound for any sound rule that reads the statements nested
in it. A sequence that got over no fault is a list of phrases. -/

namespace Scriptlet.Parse

open Grammar

/-! ## Parts of statements -/

section Parts

variable {s : Stmt} {t : Token} {ts rest : List Token}

theorem initializer_sound {value : Option Expr}
    (read : (initializer ts).read? = some (value, rest)) : Initializer ts value rest := by
  unfold initializer at read
  split at read
  · obtain ⟨rfl, rfl⟩ := Parsed.eq_of_read?_done read
    exact .absent
  · split at read
    · rename_i equal
      simp only [Parsed.read?_succ, Parsed.read?_map] at read
      obtain ⟨e, he, rfl⟩ := read
      exact .present ⟨equal⟩ (expression_sound he)
    · obtain ⟨rfl, rfl⟩ := Parsed.eq_of_read?_done read
      exact .absent

theorem varDeclaration_sound (keyword : t.kind = .kwVar) {pos : Position}
    (read : (varDeclaration pos ts).read? = some (s, rest)) : VarDecl (t :: ts) s rest := by
  simp only [varDeclaration, Parsed.read?_andThen, Parsed.read?_succ, Parsed.read?_map,
    read?_expect] at read
  obtain ⟨name, _, _, ⟨rfl, hn⟩, value, _, _, hv, _, ⟨rfl, he⟩, rfl⟩ := read
  exact .intro ⟨keyword⟩ (.intro hn) (initializer_sound hv) ⟨he⟩

theorem expressionStatement_sound
    (read : (expressionStatement ts).read? = some (s, rest)) : ExpressionStmt ts s rest := by
  simp only [expressionStatement, Parsed.read?_andThen, Parsed.read?_succ, Parsed.read?_map,
    read?_expect] at read
  obtain ⟨e, _, _, he, _, ⟨rfl, hs⟩, rfl⟩ := read
  exact .intro (expression_sound he) ⟨hs⟩

theorem property_sound {modifiers : Modifiers}
    (read : (property modifiers ts).read? = some (s, rest)) : Property modifiers ts s rest := by
  simp only [property, Parsed.read?_andThen, Parsed.read?_succ, Parsed.read?_map,
    read?_expect] at read
  obtain ⟨name, _, _, ⟨rfl, hn⟩, value, _, _, hv, _, ⟨rfl, he⟩, rfl⟩ := read
  exact .intro (.intro hn) (initializer_sound hv) ⟨he⟩

theorem parameterNames_sound {names : List String}
    (read : (parameterNames ts).read? = some (names, rest)) : Parameters ts names rest := by
  induction len : ts.length using Nat.strongRecOn generalizing ts names with
  | ind len ih =>
      subst len
      rw [parameterNames] at read
      simp only [Parsed.read?_andThen, read?_expect] at read
      obtain ⟨name, mid, shorter, ⟨rfl, hn⟩, hm⟩ := read
      cases mid with
      | nil =>
          obtain ⟨rfl, rfl⟩ := Parsed.eq_of_read?_done hm
          exact .one (.intro hn)
      | cons t mid =>
          dsimp only at hm
          split at hm
          · rename_i comma
            simp only [Parsed.read?_succ, Parsed.read?_map] at hm
            obtain ⟨names, hr, rfl⟩ := hm
            exact .more (.intro hn) ⟨comma⟩ (ih _ (tail_lt_of_lt shorter) hr rfl)
          · obtain ⟨rfl, rfl⟩ := Parsed.eq_of_read?_done hm
            exact .one (.intro hn)

theorem functionHead_sound (keyword : t.kind = .kwFunction) {name : Token} {params : List String}
    (read : (functionHead ts).read? = some ((name, params), rest)) :
    FunctionHead (t :: ts) name.lexeme params rest := by
  simp only [functionHead, Parsed.read?_andThen, Parsed.read?_succ, Parsed.read?_map,
    read?_expect] at read
  obtain ⟨_, _, _, ⟨rfl, hn⟩, _, _, _, ⟨rfl, ho⟩, _, _, _, hp, _, _, _, ⟨rfl, hc⟩, _, ⟨rfl, hb⟩,
    head⟩ := read
  obtain ⟨rfl, rfl⟩ := Prod.mk.inj head
  unfold parameters at hp
  split at hp
  · obtain ⟨rfl, rfl⟩ := Parsed.eq_of_read?_done hp
    exact .nullary ⟨keyword⟩ (.intro hn) ⟨ho⟩ ⟨hc⟩ ⟨hb⟩
  · rw [Parsed.read?_succ] at hp
    exact .intro ⟨keyword⟩ (.intro hn) ⟨ho⟩ (parameterNames_sound hp) ⟨hc⟩ ⟨hb⟩

theorem condition_sound {opening closing : Expectation} (ho : opening.kind = .leftParen)
    (hc : closing.kind = .rightParen) {test : Expr}
    (read : (condition opening closing ts).read? = some (test, rest)) :
    Condition ts test rest := by
  simp only [condition, Parsed.read?_andThen, Parsed.read?_succ, Parsed.read?_map,
    read?_expect] at read
  obtain ⟨_, _, _, ⟨rfl, hl⟩, e, _, _, he, _, ⟨rfl, hr⟩, rfl⟩ := read
  exact .intro ⟨hl.trans ho⟩ (expression_sound he) ⟨hr.trans hc⟩

theorem loopStart_sound {start : Option Stmt}
    (read : (loopStart ts).read? = some (start, rest)) : LoopStart ts start rest := by
  unfold loopStart at read
  split at read
  · obtain ⟨s, hs, rfl⟩ := (Parsed.read?_map _ _).mp read
    exact .expression (expressionStatement_sound hs)
  · split at read
    · rename_i semicolon
      obtain ⟨rfl, rfl⟩ := Parsed.eq_of_read?_done read
      exact .absent ⟨semicolon⟩
    · split at read
      · rename_i keyword
        simp only [Parsed.read?_succ, Parsed.read?_map] at read
        obtain ⟨s, hs, rfl⟩ := read
        exact .varDecl (varDeclaration_sound keyword hs)
      · obtain ⟨s, hs, rfl⟩ := (Parsed.read?_map _ _).mp read
        exact .expression (expressionStatement_sound hs)

theorem loopClause_sound {closing : TokenKind} {clause : Option Expr}
    (read : (loopClause closing ts).read? = some (clause, rest)) : Optional ts clause rest := by
  unfold loopClause at read
  split at read
  · obtain ⟨rfl, rfl⟩ := Parsed.eq_of_read?_done read
    exact .absent
  · simp only [Parsed.read?_succ, Parsed.read?_map] at read
    obtain ⟨e, he, rfl⟩ := read
    exact .present (expression_sound he)

theorem loopHead_sound {start : Option Stmt} {test step : Option Expr}
    (read : (loopHead ts).read? = some ((start, test, step), rest)) :
    LoopHead ts start test step rest := by
  simp only [loopHead, Parsed.read?_andThen, Parsed.read?_succ, Parsed.read?_map,
    read?_expect] at read
  obtain ⟨_, _, _, ⟨rfl, ho⟩, _, _, _, hs, _, _, _, ht, _, _, _, ⟨rfl, hm⟩, _, _, _, hi, _,
    ⟨rfl, hc⟩, head⟩ := read
  obtain ⟨rfl, rfl, rfl⟩ : _ = start ∧ _ = test ∧ _ = step := by simpa using head
  exact .intro ⟨ho⟩ (loopStart_sound hs) (loopClause_sound ht) ⟨hm⟩ (loopClause_sound hi) ⟨hc⟩

theorem returnStatement_sound (keyword : t.kind = .kwReturn) {pos : Position}
    (read : (returnStatement pos ts).read? = some (s, rest)) : Statement (t :: ts) s rest := by
  simp only [returnStatement, Parsed.read?_andThen, Parsed.read?_map] at read
  obtain ⟨value, mid, _, hv, _, he, rfl⟩ := read
  have optional : Optional ts value mid := by
    unfold returnValue at hv
    split at hv
    · obtain ⟨rfl, rfl⟩ := Parsed.eq_of_read?_done hv
      exact .absent
    · simp only [Parsed.read?_succ, Parsed.read?_map] at hv
      obtain ⟨e, hr, rfl⟩ := hv
      exact .present (expression_sound hr)
  have ending : ReturnEnd mid rest := by
    unfold returnEnd at he
    split at he
    · obtain ⟨_, rfl⟩ := Parsed.eq_of_read?_done he
      exact .atEnd
    · split at he
      · rename_i semicolon
        rw [Parsed.read?_succ] at he
        obtain ⟨_, rfl⟩ := Parsed.eq_of_read?_done he
        exact .semicolon ⟨semicolon⟩
      · split at he
        · rename_i brace
          obtain ⟨_, rfl⟩ := Parsed.eq_of_read?_done he
          exact .beforeBrace ⟨brace⟩
        · simp at he
  exact .returning ⟨keyword⟩ optional ending

theorem blockEnd_sound {α : Type} {value v : α}
    (read : (blockEnd value ts).read? = some (v, rest))
    (closing : ∀ t ∈ ts.head?, closesBody t) : v = value ∧ BlockEnd ts rest := by
  cases ts with
  | nil =>
      obtain ⟨rfl, rfl⟩ := Parsed.eq_of_read?_done read
      exact ⟨rfl, .atEnd⟩
  | cons t ts =>
      rw [blockEnd, Parsed.read?_succ] at read
      obtain ⟨rfl, rfl⟩ := Parsed.eq_of_read?_done read
      have brace : t.kind = .rightBrace := by simpa [closesBody] using closing
      exact ⟨rfl, .brace ⟨brace⟩⟩

end Parts

/-! ## Sequences -/

/-- A sequence that got over no fault has read one phrase after the other, up to a closing token or
the end. -/
theorem sequence_sound {α : Type} {n : Nat} {phrase : List Token → α → List Token → Prop}
    {phrases : List Token → List α → List Token → Prop} {rule : UpTo Attempt α n}
    {closes : Token → Bool} (nil : ∀ ts, phrases ts [] ts)
    (cons : ∀ ts a mid as rest, phrase ts a mid → phrases mid as rest → phrases ts (a :: as) rest)
    (sound : ∀ ts h a rest, (rule ts h).read? = some (a, rest) → phrase ts a rest)
    {items : List α} {ts rest : List Token} (h : ts.length ≤ n)
    (read : (sequence rule closes ts h).read? = some (items, rest)) :
    phrases ts items rest ∧ ∀ t ∈ rest.head?, closes t := by
  induction len : ts.length using Nat.strongRecOn generalizing ts items with
  | ind len ih =>
      subst len
      cases ts with
      | nil =>
          obtain ⟨rfl, rfl⟩ := (read?_sequence_nil h).mp read
          exact ⟨nil [], by simp⟩
      | cons t ts =>
          rw [read?_sequence_cons] at read
          split at read
          · rename_i closing
            obtain ⟨rfl, rfl⟩ := read
            exact ⟨nil _, by simpa using closing⟩
          · obtain ⟨item, mid, others, shorter, hi, ho, rfl⟩ := read
            obtain ⟨phrases_mid, closing⟩ := ih _ shorter _ ho rfl
            exact ⟨cons _ _ _ _ _ (sound _ _ _ _ hi) phrases_mid, closing⟩

/-! ## Statements -/

section Statements

variable {n : Nat} {s : Stmt} {t : Token} {ts rest : List Token} {rule : UpTo Attempt Stmt n}
  (sound : ∀ ts h s rest, (rule ts h).read? = some (s, rest) → Statement ts s rest)
include sound

theorem blockBody_sound {body : List Stmt} (h : ts.length ≤ n)
    (read : (blockBody rule ts h).read? = some (body, rest)) :
    ∃ mid, Statements ts body mid ∧ BlockEnd mid rest := by
  obtain ⟨items, mid, hs, he⟩ := (Sequence.read?_andThen _ _).mp read
  obtain ⟨statements, closing⟩ :=
    sequence_sound (fun _ => Statements.nil) (fun _ _ _ _ _ => Statements.cons) sound h hs
  obtain ⟨rfl, ending⟩ := blockEnd_sound he closing
  exact ⟨mid, statements, ending⟩

theorem function_sound (keyword : t.kind = .kwFunction) {modifiers : Modifiers}
    (h : ts.length ≤ n) (read : (function rule modifiers ts h).read? = some (s, rest)) :
    ∃ pos name params body a b, s = .function pos name params body modifiers ∧
      FunctionHead (t :: ts) name params a ∧ Statements a body b ∧ BlockEnd b rest := by
  simp only [function, Attempt.read?_andThen, Attempt.read?_clean, Attempt.read?_map] at read
  obtain ⟨⟨name, params⟩, a, shorter, hh, body, hb, rfl⟩ := read
  obtain ⟨b, statements, ending⟩ := blockBody_sound sound _ hb
  exact ⟨name.pos, name.lexeme, params, body, a, b, rfl, functionHead_sound keyword hh, statements,
    ending⟩

theorem modified_sound {modifiers : Modifiers} {start : List Token}
    (marked : Modified start modifiers ts) (h : ts.length ≤ n)
    (read : (modified rule modifiers ts h).read? = some (s, rest)) : Member start s rest := by
  unfold modified at read
  split at read
  · rw [Attempt.read?_clean] at read
    exact .property marked (property_sound read)
  · split at read
    · rename_i keyword
      rw [Attempt.read?_succ] at read
      obtain ⟨_, _, _, _, _, _, rfl, head, statements, ending⟩ :=
        function_sound sound keyword _ read
      exact .function marked head statements ending
    · rw [Attempt.read?_clean] at read
      exact .property marked (property_sound read)

theorem classMember_sound (h : ts.length ≤ n)
    (read : (classMember rule ts h).read? = some (s, rest)) : Member ts s rest := by
  cases ts with
  | nil => exact modified_sound sound .absent h read
  | cons t ts =>
      simp only [classMember] at read
      split at read
      · rename_i modifiers hm
        rw [Attempt.read?_succ] at read
        refine modified_sound sound ?_ _ read
        unfold modifiers? at hm
        split at hm
        · rename_i keyword
          obtain rfl := Option.some.inj hm
          exact .isPublic ⟨keyword⟩
        · rename_i keyword
          obtain rfl := Option.some.inj hm
          exact .isPrivate ⟨keyword⟩
        · rename_i keyword
          obtain rfl := Option.some.inj hm
          exact .isStatic ⟨keyword⟩
        · cases hm
      · exact modified_sound sound .absent h read

theorem classDeclaration_sound {isStatic : Bool} {pos : Position} {start : List Token}
    (head : ∀ {name a b}, Named name ts a → Terminal .leftBrace a b →
      ClassHead start name isStatic b) (h : ts.length ≤ n)
    (read : (classDeclaration rule isStatic pos ts h).read? = some (s, rest)) :
    Statement start s rest := by
  simp only [classDeclaration, classHead, Attempt.read?_andThen, Attempt.read?_clean,
    Parsed.read?_andThen, Parsed.read?_succ, Parsed.read?_map, read?_expect,
    Sequence.read?_andThen] at read
  obtain ⟨_, mid, shorter, ⟨name, _, _, ⟨rfl, hn⟩, _, ⟨rfl, ho⟩, rfl⟩, members, _, hm, _,
    ⟨rfl, hc⟩, rfl⟩ := read
  obtain ⟨members, -⟩ := sequence_sound (fun _ => Members.nil) (fun _ _ _ _ _ => Members.cons)
    (fun _ h _ _ => classMember_sound sound h) _ hm
  exact .classDecl (head (.intro hn) ⟨ho⟩) members ⟨hc⟩

end Statements

section Nested

variable {n : Nat} {s : Stmt} {t : Token} {ts rest : List Token} {nested : Below Attempt Stmt n}
  (sound : ∀ ts h s rest, (nested ts h).read? = some (s, rest) → Statement ts s rest)
include sound

theorem branch_sound (keyword : t.kind = .kwIf) {pos : Position} (h : ts.length ≤ n)
    (read : (branch nested pos ts h).read? = some (s, rest)) : Statement (t :: ts) s rest := by
  simp only [branch, Attempt.read?_andThen, Attempt.read?_clean, Attempt.read?_succ,
    Attempt.read?_map] at read
  obtain ⟨test, _, _, ht, consequent, mid, _, hs, other, ho, rfl⟩ := read
  have condition := condition_sound rfl rfl ht
  have statement := sound _ _ _ _ hs
  unfold alternative at ho
  split at ho
  · rw [Attempt.read?_clean] at ho
    obtain ⟨rfl, rfl⟩ := Parsed.eq_of_read?_done ho
    refine .branch ⟨keyword⟩ condition statement ?_
    rintro _ ⟨⟩
  · split at ho
    · rename_i hk
      simp only [Attempt.read?_succ, Attempt.read?_map] at ho
      obtain ⟨s, hs, rfl⟩ := ho
      exact .branchElse ⟨keyword⟩ condition statement ⟨hk⟩ (sound _ _ _ _ hs)
    · rename_i hk
      rw [Attempt.read?_clean] at ho
      obtain ⟨rfl, rfl⟩ := Parsed.eq_of_read?_done ho
      refine .branch ⟨keyword⟩ condition statement ?_
      rintro _ ⟨hx⟩
      exact hk hx

theorem whileLoop_sound (keyword : t.kind = .kwWhile) {pos : Position} (h : ts.length ≤ n)
    (read : (whileLoop nested pos ts h).read? = some (s, rest)) : Statement (t :: ts) s rest := by
  simp only [whileLoop, Attempt.read?_andThen, Attempt.read?_clean, Attempt.read?_succ,
    Attempt.read?_map] at read
  obtain ⟨test, _, _, ht, body, hb, rfl⟩ := read
  exact .whileLoop ⟨keyword⟩ (condition_sound rfl rfl ht) (sound _ _ _ _ hb)

theorem forLoop_sound (keyword : t.kind = .kwFor) {pos : Position} (h : ts.length ≤ n)
    (read : (forLoop nested pos ts h).read? = some (s, rest)) : Statement (t :: ts) s rest := by
  simp only [forLoop, Attempt.read?_andThen, Attempt.read?_clean, Attempt.read?_succ,
    Attempt.read?_map] at read
  obtain ⟨⟨start, test, step⟩, _, _, hh, body, hb, rfl⟩ := read
  exact .forLoop ⟨keyword⟩ (loopHead_sound hh) (sound _ _ _ _ hb)

theorem statementFrom_sound (h : ts.length < n)
    (read : (statementFrom nested t ts h).read? = some (s, rest)) :
    Statement (t :: ts) s rest := by
  unfold statementFrom at read
  dsimp only at read
  split at read
  · rename_i keyword
    simp only [Attempt.read?_clean, Parsed.read?_succ] at read
    exact .varDecl (varDeclaration_sound keyword read)
  · rename_i keyword
    simp only [Attempt.read?_succ, Attempt.read?_andThen, Attempt.read?_clean, read?_expect] at read
    obtain ⟨_, _, _, ⟨rfl, hc⟩, hd⟩ := read
    exact classDeclaration_sound (fun _ _ _ _ => sound _ _ _ _)
      (fun hn ho => .isStatic ⟨keyword⟩ ⟨hc⟩ hn ho) _ hd
  · rename_i keyword
    rw [Attempt.read?_succ] at read
    exact classDeclaration_sound (fun _ _ _ _ => sound _ _ _ _)
      (fun hn ho => .plain ⟨keyword⟩ hn ho) _ read
  · rename_i keyword
    rw [Attempt.read?_succ] at read
    obtain ⟨_, _, _, _, _, _, rfl, head, statements, ending⟩ :=
      function_sound (fun _ _ _ _ => sound _ _ _ _) keyword _ read
    exact .function head statements ending
  · rename_i keyword
    rw [Attempt.read?_clean] at read
    exact returnStatement_sound keyword read
  · rename_i keyword
    rw [Attempt.read?_succ] at read
    exact branch_sound sound keyword _ read
  · rename_i keyword
    rw [Attempt.read?_succ] at read
    exact whileLoop_sound sound keyword _ read
  · rename_i keyword
    rw [Attempt.read?_succ] at read
    exact forLoop_sound sound keyword _ read
  · rename_i brace
    obtain ⟨body, hb, rfl⟩ := (Attempt.read?_map _ _).mp read
    obtain ⟨_, statements, ending⟩ := blockBody_sound (fun _ _ _ _ => sound _ _ _ _) _ hb
    exact .block ⟨brace⟩ statements ending
  · rw [Attempt.read?_clean] at read
    exact .expression (expressionStatement_sound read)

end Nested

/-- What is read as a statement, with no fault got over inside it, is one. -/
theorem statement_sound {ts rest : List Token} {s : Stmt}
    (read : (statement ts).read? = some (s, rest)) : Statement ts s rest := by
  induction len : ts.length using Nat.strongRecOn generalizing ts s rest with
  | ind len ih =>
      subst len
      cases ts with
      | nil =>
          rw [statement, Attempt.read?_clean] at read
          exact .expression (expressionStatement_sound read)
      | cons t ts =>
          rw [statement] at read
          exact statementFrom_sound (fun _ h _ _ hr => ih _ h hr rfl) _ read

end Scriptlet.Parse

/-! ## Programs -/

namespace Scriptlet.Script

/-- A script without diagnostics is read from the tokens before the first end mark, all of them: in
the grammar they are its program. -/
theorem ofTokens_sound (ts : List Token) (clean : (ofTokens ts).diagnostics = []) :
    Grammar.Derives (body ts) (ofTokens ts).program := by
  have read := (read?_topLevel_body ts).mpr ⟨clean, rfl⟩
  exact (Parse.sequence_sound (fun _ => .nil) (fun _ _ _ _ _ => .cons)
    (fun _ _ _ _ => Parse.statement_sound) _ read).1

/-- The tokens end inside a block and after a value; both ends may be left out. -/
theorem ofTokens_sound_openBlock :
    let ts := Token.scan
      "function f(a, b) \x7b if (a) if (b) c; else d.e += -1 * (2 + f)(a, b); return !a"
    (ofTokens ts).diagnostics = [] ∧ Grammar.Derives (body ts) (ofTokens ts).program :=
  ⟨by decide +kernel, ofTokens_sound _ (by decide +kernel)⟩

end Scriptlet.Script
