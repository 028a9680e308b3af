import Scriptlet.Proofs.Completeness.Clause

/-! # Completeness of the parser

Every statement of the grammar is read, up to places, by the rules for statements. The grammar looks
at what follows a statement just where the rules do, so nothing is asked of the tokens left. -/

namespace Scriptlet.Grammar

open Parse

/-! ## How statements start -/

/-- A statement starts with a token, which neither closes a body nor goes on with a branch. -/
theorem Statement.starts {ts rest : List Token} {s : Stmt} (d : Statement ts s rest) :
    ∃ t ∈ ts.head?, closesBody t = false ∧ t.kind ≠ .kwElse := by
  cases d with
  | varDecl d =>
      obtain ⟨⟨hk⟩, -⟩ := d
      exact ⟨_, rfl, by simp [closesBody, hk]⟩
  | expression d =>
      obtain ⟨t, ht, starts⟩ := d.starts
      have notBrace : t.kind ≠ .rightBrace := by
        rintro hk
        rw [hk] at starts
        cases starts
      have notElse : t.kind ≠ .kwElse := by
        rintro hk
        rw [hk] at starts
        cases starts
      exact ⟨t, ht, by simp [closesBody, notBrace], notElse⟩
  | returning keyword | branch keyword | branchElse keyword | whileLoop keyword
  | forLoop keyword | block keyword =>
      obtain ⟨hk⟩ := keyword
      exact ⟨_, rfl, by simp [closesBody, hk]⟩
  | function head =>
      obtain ⟨t, a, rfl, hk, -⟩ := head.read
      exact ⟨t, rfl, by simp [closesBody, hk]⟩
  | classDecl head =>
      cases head with
      | plain keyword | isStatic keyword =>
          obtain ⟨hk⟩ := keyword
          exact ⟨_, rfl, by simp [closesBody, hk]⟩

theorem Statement.opens {ts rest : List Token} {s : Stmt} (d : Statement ts s rest) :
    ∃ t ∈ ts.head?, closesBody t = false := by
  obtain ⟨t, ht, opens, -⟩ := d.starts
  exact ⟨t, ht, opens⟩

theorem Member.opens {ts rest : List Token} {s : Stmt} (d : Member ts s rest) :
    ∃ t ∈ ts.head?, closesBody t = false := by
  cases d with
  | property marked d =>
      cases marked with
      | absent =>
          obtain ⟨⟨hw⟩, -⟩ := d
          exact ⟨_, rfl, by simp [closesBody, hw]⟩
      | isPublic keyword | isPrivate keyword | isStatic keyword =>
          obtain ⟨hk⟩ := keyword
          exact ⟨_, rfl, by simp [closesBody, hk]⟩
  | function marked head =>
      cases marked with
      | absent =>
          obtain ⟨t, a, rfl, hk, -⟩ := head.read
          exact ⟨t, rfl, by simp [closesBody, hk]⟩
      | isPublic keyword | isPrivate keyword | isStatic keyword =>
          obtain ⟨hk⟩ := keyword
          exact ⟨_, rfl, by simp [closesBody, hk]⟩

/-! ## Sequences -/

/-- A list of phrases is read up to a closing token if every phrase is and none starts with a
closing token. -/
theorem read?_sequence {n : Nat} {phrase : List Token → Stmt → List Token → Prop}
    {phrases : List Token → List Stmt → List Token → Prop} {rule : UpTo Attempt Stmt n}
    {closes : Token → Bool} {rest : List Token}
    (nil : ∀ ts, phrases ts [] rest → ts = rest)
    (cons : ∀ ts s ss, phrases ts (s :: ss) rest → ∃ mid, phrase ts s mid ∧ phrases mid ss rest)
    (starts : ∀ ts s mid, phrase ts s mid → ∃ t ∈ ts.head?, closes t = false)
    (read : ∀ ts (h : ts.length ≤ n) s mid, phrase ts s mid →
      ∃ s', s'.erase = s.erase ∧ (rule ts h).read? = some (s', mid))
    (closing : ∀ t ∈ rest.head?, closes t) {ts : List Token} {ss : List Stmt} (h : ts.length ≤ n)
    (d : phrases ts ss rest) :
    ∃ ss', ss'.map Stmt.erase = ss.map Stmt.erase ∧
      (sequence rule closes ts h).read? = some (ss', rest) := by
  induction ss generalizing ts with
  | nil =>
      obtain rfl := nil ts d
      refine ⟨[], rfl, ?_⟩
      cases ts with
      | nil => exact (read?_sequence_nil h).mpr ⟨rfl, rfl⟩
      | cons t ts =>
          rw [read?_sequence_cons, if_pos (closing t rfl)]
          exact ⟨rfl, rfl⟩
  | cons s ss ih =>
      obtain ⟨mid, first, others⟩ := cons ts s ss d
      obtain ⟨t, ht, opens⟩ := starts ts s mid first
      cases ts with
      | nil => cases ht
      | cons t' ts =>
          obtain rfl : t' = t := by simpa using ht
          obtain ⟨s', same, readFirst⟩ := read (t' :: ts) h s mid first
          have shorter := Attempt.length_lt_of_read? readFirst
          obtain ⟨ss', sames, readOthers⟩ := ih (le_of_lt_of_le shorter h) others
          refine ⟨s' :: ss', by simp [same, sames], ?_⟩
          rw [read?_sequence_cons, opens]
          exact ⟨s', mid, ss', shorter, readFirst, readOthers, rfl⟩

/-! ## Statements -/

/-- After its modifier a member is read as what the modifier stands in front of. -/
theorem Modified.read {n : Nat} {ts a : List Token} {modifiers : Modifiers}
    (rule : UpTo Attempt Stmt n) (marked : Modified ts modifiers a)
    (plain : ∀ t ∈ a.head?, modifiers? t.kind = none) (h : ts.length ≤ n) :
    ∃ h' : a.length ≤ n, (classMember rule ts h).read? = (modified rule modifiers a h').read? := by
  cases marked with
  | absent =>
      refine ⟨h, ?_⟩
      cases ts with
      | nil => rfl
      | cons t ts =>
          have none := plain t rfl
          simp only [classMember, none]
  | isPublic keyword | isPrivate keyword | isStatic keyword =>
      obtain ⟨hk⟩ := keyword
      exact ⟨tail_le_of_le h, by simp only [classMember, hk, modifiers?, Attempt.read?_succ]⟩

section Bodies

variable {n : Nat} {ts rest : List Token} {rule : UpTo Attempt Stmt n}
  (reads : ∀ ts (h : ts.length ≤ n) s rest, Statement ts s rest →
    ∃ s', s'.erase = s.erase ∧ (rule ts h).read? = some (s', rest))
include reads

theorem Statements.read_block {body : List Stmt} {mid : List Token} (d : Statements ts body mid)
    (ending : BlockEnd mid rest) (h : ts.length ≤ n) :
    ∃ body', body'.map Stmt.erase = body.map Stmt.erase ∧
      (blockBody rule ts h).read? = some (body', rest) := by
  obtain ⟨body', same, readBody⟩ := read?_sequence
    (fun _ d => by cases d; rfl) (fun _ _ _ d => by cases d with | cons d ds => exact ⟨_, d, ds⟩)
    (fun _ _ _ => Statement.opens) reads ending.closes h d
  refine ⟨body', same, (Sequence.read?_andThen _ _).mpr ?_⟩
  exact ⟨body', mid, readBody, ending.read body'⟩

theorem FunctionHead.read_function {name : String} {params : List String} {body : List Stmt}
    {modifiers : Modifiers} {a b : List Token} (head : FunctionHead ts name params a)
    (d : Statements a body b) (ending : BlockEnd b rest) {pos : Position} :
    ∃ t c, ts = t :: c ∧ t.kind = .kwFunction ∧ ∀ h : c.length ≤ n,
      ∃ s', s'.erase = (Stmt.function pos name params body modifiers).erase ∧
        (function rule modifiers c h).read? = some (s', rest) := by
  obtain ⟨t, c, rfl, hk, word, rfl, readHead⟩ := head.read
  refine ⟨t, c, rfl, hk, fun h => ?_⟩
  have shorter := Parsed.length_lt_of_read? readHead
  obtain ⟨body', same, readBody⟩ := d.read_block reads ending (le_of_lt_of_le shorter h)
  refine ⟨.function word.pos word.lexeme params body' modifiers, by simp [Stmt.erase, same], ?_⟩
  simp only [function, Attempt.read?_andThen, Attempt.read?_clean, Attempt.read?_map]
  exact ⟨(word, params), a, shorter, readHead, body', readBody, rfl⟩

theorem Member.read {s : Stmt} (d : Member ts s rest) (h : ts.length ≤ n) :
    ∃ s', s'.erase = s.erase ∧ (classMember rule ts h).read? = some (s', rest) := by
  cases d with
  | property marked d =>
      obtain ⟨s', same, readProperty⟩ := d.read
      obtain ⟨⟨hw⟩, -⟩ := d
      obtain ⟨h', eq⟩ := marked.read rule (by simp [hw, modifiers?]) h
      refine ⟨s', same, ?_⟩
      rw [eq]
      simpa [modified, hw] using readProperty
  | function marked head body ending =>
      obtain ⟨t, c, rfl, hk, readFunction⟩ := head.read_function reads body ending
      obtain ⟨h', eq⟩ := marked.read rule (by simp [hk, modifiers?]) h
      obtain ⟨s', same, readFunction⟩ := readFunction (tail_le_of_le h')
      refine ⟨s', same, ?_⟩
      rw [eq]
      simpa [modified, hk] using readFunction

theorem Members.read_class {name : Token} {members : List Stmt} {isStatic : Bool}
    {brace : Token} {a b : List Token} (hn : name.kind = .identifier) (hb : brace.kind = .leftBrace)
    (d : Members a members b) (close : Terminal .rightBrace b rest)
    (h : (name :: brace :: a).length ≤ n) (pos : Position) :
    ∃ s', s'.erase = (Stmt.classDecl pos name.lexeme members isStatic).erase ∧
      (classDeclaration rule isStatic pos (name :: brace :: a) h).read? = some (s', rest) := by
  have closing : ∀ t ∈ b.head?, closesBody t := (BlockEnd.brace close).closes
  obtain ⟨members', same, readMembers⟩ := read?_sequence
    (fun _ d => by cases d; rfl) (fun _ _ _ d => by cases d with | cons d ds => exact ⟨_, d, ds⟩)
    (fun _ _ _ => Member.opens) (fun _ h _ _ d => d.read reads h) closing
    (tail_le_of_le (tail_le_of_le h)) d
  obtain @⟨last, rest, hl⟩ := close
  refine ⟨.classDecl pos name.lexeme members' isStatic, by simp [Stmt.erase, same], ?_⟩
  simp only [classDeclaration, classHead, Attempt.read?_andThen, Attempt.read?_clean,
    Parsed.read?_andThen, Parsed.read?_succ, Parsed.read?_map, read?_expect,
    Sequence.read?_andThen]
  exact ⟨name, a, Nat.lt_succ_of_lt (Nat.lt_succ_self _),
    ⟨name, _, Nat.lt_succ_self _, ⟨rfl, hn⟩, brace, ⟨rfl, hb⟩, rfl⟩, members', _, readMembers, last,
    ⟨rfl, hl⟩, rfl⟩

end Bodies

section Nested

variable {n : Nat} {ts rest : List Token} {nested : Below Attempt Stmt n}
  (reads : ∀ ts (h : ts.length < n) s rest, Statement ts s rest →
    ∃ s', s'.erase = s.erase ∧ (nested ts h).read? = some (s', rest))
include reads

theorem Statement.read_branch {s : Stmt} {test : Expr} {a : List Token}
    (condition : Condition ts test a) (d : Statement a s rest)
    (last : ∀ after, ¬ Terminal .kwElse rest after) (h : ts.length ≤ n) (pos : Position) :
    ∃ s', s'.erase = (Stmt.branch pos test s none).erase ∧
      (Parse.branch nested pos ts h).read? = some (s', rest) := by
  obtain ⟨test', sameTest, readTest⟩ := condition.read .ifCondition .ifConditionEnd rfl rfl
  have shorter := Parsed.length_lt_of_read? readTest
  obtain ⟨s', same, readBody⟩ := reads a (Parse.lt_of_lt_of_le shorter h) s rest d
  refine ⟨Stmt.branch pos test' s' none, by simp [Stmt.erase, sameTest, same], ?_⟩
  simp only [Parse.branch, Attempt.read?_andThen, Attempt.read?_clean, Attempt.read?_succ,
    Attempt.read?_map]
  refine ⟨test', a, shorter, readTest, s', rest, Attempt.length_lt_of_read? readBody, readBody,
    none, ?_, rfl⟩
  cases rest with
  | nil => rfl
  | cons t rest =>
      have hk : t.kind ≠ .kwElse := fun hk => last rest ⟨hk⟩
      simp [alternative, hk]

theorem Statement.read_branchElse {s other : Stmt} {test : Expr} {a b c : List Token}
    (condition : Condition ts test a) (d : Statement a s b)
    (keyword : Terminal .kwElse b c) (d' : Statement c other rest) (h : ts.length ≤ n)
    (pos : Position) :
    ∃ s', s'.erase = (Stmt.branch pos test s (some other)).erase ∧
      (Parse.branch nested pos ts h).read? = some (s', rest) := by
  obtain ⟨test', sameTest, readTest⟩ := condition.read .ifCondition .ifConditionEnd rfl rfl
  have shorter := Parsed.length_lt_of_read? readTest
  obtain ⟨s', same, readBody⟩ := reads a (Parse.lt_of_lt_of_le shorter h) s b d
  obtain @⟨t, c, hk⟩ := keyword
  have shorter' := Attempt.length_lt_of_read? readBody
  obtain ⟨other', sameOther, readOther⟩ := reads c
    (lt_of_lt_of_lt (tail_lt_of_lt shorter') (Parse.lt_of_lt_of_le shorter h)) other rest d'
  have sameBranch : (Stmt.branch pos test' s' (some other')).erase =
      (Stmt.branch pos test s (some other)).erase := by
    simp [Stmt.erase, sameTest, same, sameOther]
  refine ⟨_, sameBranch, ?_⟩
  simp only [Parse.branch, Attempt.read?_andThen, Attempt.read?_clean, Attempt.read?_succ,
    Attempt.read?_map]
  refine ⟨test', a, shorter, readTest, s', _, shorter', readBody, some other', ?_, rfl⟩
  simpa [alternative, hk] using readOther

theorem Statement.read_whileLoop {body : Stmt} {test : Expr} {a : List Token}
    (condition : Condition ts test a) (d : Statement a body rest) (h : ts.length ≤ n)
    (pos : Position) :
    ∃ s', s'.erase = (Stmt.whileLoop pos test body).erase ∧
      (Parse.whileLoop nested pos ts h).read? = some (s', rest) := by
  obtain ⟨test', sameTest, readTest⟩ := condition.read .whileCondition .whileConditionEnd rfl rfl
  have shorter := Parsed.length_lt_of_read? readTest
  obtain ⟨body', same, readBody⟩ := reads a (Parse.lt_of_lt_of_le shorter h) body rest d
  refine ⟨Stmt.whileLoop pos test' body', by simp [Stmt.erase, sameTest, same], ?_⟩
  simp only [Parse.whileLoop, Attempt.read?_andThen, Attempt.read?_clean, Attempt.read?_succ,
    Attempt.read?_map]
  exact ⟨test', a, shorter, readTest, body', readBody, rfl⟩

theorem Statement.read_forLoop {start : Option Stmt} {test step : Option Expr} {body : Stmt}
    {a : List Token} (head : LoopHead ts start test step a)
    (d : Statement a body rest) (h : ts.length ≤ n) (pos : Position) :
    ∃ s', s'.erase = (Stmt.forLoop pos start test step body).erase ∧
      (Parse.forLoop nested pos ts h).read? = some (s', rest) := by
  obtain ⟨start', test', step', sameStart, sameTest, sameStep, readHead⟩ := head.read
  have shorter := Parsed.length_lt_of_read? readHead
  obtain ⟨body', same, readBody⟩ := reads a (Parse.lt_of_lt_of_le shorter h) body rest d
  refine ⟨Stmt.forLoop pos start' test' step' body',
    by simp [Stmt.erase, sameStart, sameTest, sameStep, same], ?_⟩
  simp only [Parse.forLoop, Attempt.read?_andThen, Attempt.read?_clean, Attempt.read?_succ,
    Attempt.read?_map]
  exact ⟨(start', test', step'), a, shorter, readHead, body', readBody, rfl⟩

omit reads in
/-- A token that starts an expression starts no other statement. -/
theorem statementFrom_expression {t : Token} (starts : Stratum.assignment.starts t.kind)
    (h : ts.length < n) :
    statementFrom nested t ts h = .clean (expressionStatement (t :: ts)) := by
  unfold statementFrom
  dsimp only
  split
  all_goals first
    | rfl
    | rename_i hk
      rw [hk] at starts
      cases starts

theorem Statement.read_from {t : Token} {s : Stmt} (d : Statement (t :: ts) s rest)
    (h : ts.length < n) :
    ∃ s', s'.erase = s.erase ∧ (statementFrom nested t ts h).read? = some (s', rest) := by
  have le := Nat.le_of_lt h
  have readsBody : ∀ ts' (h' : ts'.length ≤ ts.length) s rest, Statement ts' s rest →
      ∃ s', s'.erase = s.erase ∧
        (nested ts' (Nat.lt_of_le_of_lt h' h)).read? = some (s', rest) :=
    fun ts' h' => reads ts' _
  cases d with
  | varDecl d =>
      obtain ⟨t', a, eq, hk, s', same, read⟩ := d.read
      obtain ⟨rfl, rfl⟩ := List.cons.inj eq
      exact ⟨s', same, by simpa [statementFrom, hk] using read⟩
  | expression d =>
      obtain ⟨s', same, read⟩ := d.read
      obtain ⟨t', ht, starts⟩ := d.starts
      obtain rfl : t = t' := by simpa using ht
      refine ⟨s', same, ?_⟩
      rw [statementFrom_expression starts, Attempt.read?_clean]
      exact read
  | returning keyword value ending =>
      obtain ⟨hk⟩ := keyword
      obtain ⟨value', same, read⟩ := value.read_return ending
      refine ⟨.returning t.pos value', by simp [Stmt.erase, same], ?_⟩
      simp only [statementFrom, hk, Attempt.read?_clean, returnStatement, Parsed.read?_andThen,
        Parsed.read?_map]
      exact ⟨value', _, Parsed.length_lt_of_read? read, read, (), ending.read, rfl⟩
  | branch keyword condition d last =>
      obtain ⟨hk⟩ := keyword
      obtain ⟨s', same, read⟩ := Statement.read_branch reads condition d last le t.pos
      exact ⟨s', same, by simpa [statementFrom, hk] using read⟩
  | branchElse keyword condition d other d' =>
      obtain ⟨hk⟩ := keyword
      obtain ⟨s', same, read⟩ := Statement.read_branchElse reads condition d other d' le t.pos
      exact ⟨s', same, by simpa [statementFrom, hk] using read⟩
  | whileLoop keyword condition d =>
      obtain ⟨hk⟩ := keyword
      obtain ⟨s', same, read⟩ := Statement.read_whileLoop reads condition d le t.pos
      exact ⟨s', same, by simpa [statementFrom, hk] using read⟩
  | forLoop keyword head d =>
      obtain ⟨hk⟩ := keyword
      obtain ⟨s', same, read⟩ := Statement.read_forLoop reads head d le t.pos
      exact ⟨s', same, by simpa [statementFrom, hk] using read⟩
  | block keyword d ending =>
      obtain ⟨hk⟩ := keyword
      obtain ⟨body', same, read⟩ := d.read_block readsBody ending (length_le ts)
      refine ⟨.block t.pos body', by simp [Stmt.erase, same], ?_⟩
      simp only [statementFrom, hk, Attempt.read?_map]
      exact ⟨body', read, rfl⟩
  | function head d ending =>
      obtain ⟨t', a, eq, hk, read⟩ := head.read_function readsBody d ending
      obtain ⟨rfl, rfl⟩ := List.cons.inj eq
      obtain ⟨s', same, read⟩ := read (length_le ts)
      exact ⟨s', same, by simpa [statementFrom, hk] using read⟩
  | classDecl head d close =>
      cases head with
      | plain keyword named brace =>
          obtain ⟨hk⟩ := keyword
          obtain ⟨hn⟩ := named
          obtain ⟨hb⟩ := brace
          obtain ⟨s', same, read⟩ := d.read_class readsBody hn hb close (length_le _) t.pos
          exact ⟨s', same, by simpa [statementFrom, hk] using read⟩
      | isStatic marker keyword named brace =>
          obtain ⟨hk⟩ := marker
          obtain @⟨word, _, hc⟩ := keyword
          obtain ⟨hn⟩ := named
          obtain ⟨hb⟩ := brace
          obtain ⟨s', same, read⟩ := d.read_class readsBody hn hb close
            (tail_le_of_le (length_le _)) t.pos
          refine ⟨s', same, ?_⟩
          simp only [statementFrom, hk, Attempt.read?_succ, Attempt.read?_andThen,
            Attempt.read?_clean, read?_expect]
          exact ⟨word, _, Nat.lt_succ_self _, ⟨rfl, hc⟩, read⟩

end Nested

/-- A statement is read, up to places, whatever follows it. -/
theorem Statement.read : ∀ {ts rest : List Token} {s : Stmt}, Statement ts s rest →
    ∃ s', s'.erase = s.erase ∧ (statement ts).read? = some (s', rest)
  | [], _, _, d => by
      obtain ⟨t, ht, -⟩ := d.starts
      cases ht
  | t :: ts, _, _, d => by
      rw [statement]
      exact Statement.read_from (fun _ shorter _ _ d => Statement.read d) d _
termination_by ts => ts.length
decreasing_by exact shorter

end Scriptlet.Grammar

/-! ## Programs -/

namespace Scriptlet.Script

open Grammar Parse

/-- Tokens that are a program in the grammar are read as that program, up to places. -/
theorem topLevel_complete {ts : List Token} {program : Program} (d : Derives ts program) :
    ∃ program' : Program, (topLevel ts).read? = some (program', []) ∧
      program'.erase = program.erase := by
  obtain ⟨program', same, read⟩ := read?_sequence
    (fun _ d => by cases d; rfl) (fun _ _ _ d => by cases d with | cons d ds => exact ⟨_, d, ds⟩)
    (fun _ _ _ d => by obtain ⟨t, ht, -⟩ := d.starts; exact ⟨t, ht, rfl⟩)
    (fun _ _ _ _ => Statement.read) (by simp) (Nat.le_refl _) d
  exact ⟨program', read, same⟩

/-- A script whose tokens are a program in the grammar is that program, up to places, without a
diagnostic. -/
theorem ofTokens_complete {ts : List Token} {program : Program} (d : Derives (body ts) program) :
    (ofTokens ts).diagnostics = [] ∧ (ofTokens ts).program.erase = program.erase := by
  obtain ⟨program', read, same⟩ := topLevel_complete d
  obtain ⟨clean, rfl⟩ := (read?_topLevel_body ts).mp read
  exact ⟨clean, same⟩

end Scriptlet.Script
