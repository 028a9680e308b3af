import Scriptlet.Proofs.Cursor.Expression

/-! # Walks over statements

One lemma for each rule, as for expressions. The three loops that get over faults are one loop with
different steps, and the lemma about it says where they go on. -/

namespace Scriptlet.Tokens

open Parse Cursor Script

variable {pre ts us : List Token} {n : Nat} {t : Token}

/-! ## Clauses -/

theorem reads_expressionStatement (within : us <:+ body ts) :
    Reads pre ts (expressionStatement (pre ++ ts)) us (Parse.expressionStatement us) :=
  Reads.bind (reads_expression us within) fun _ _ _ suffix =>
    ((reads_demand _ (suffix.trans within)).map _).succ

theorem reads_initializer (within : us <:+ body ts) :
    Reads pre ts (initializer (pre ++ ts)) us (Parse.initializer us) := by
  rw [initializer]
  cases us with
  | nil => exact .refused within rfl (.pure none [])
  | cons t us =>
      rw [Parse.initializer]
      split
      · rename_i equal
        exact .accepted within equal ((reads_expression us (tail_within within)).map _).succ.succ
      · rename_i other
        exact .refused within (decide_eq_false other) (.pure none (t :: us))

theorem reads_varDeclaration (within : t :: us <:+ body ts) :
    Reads pre ts (varDeclaration (pre ++ ts)) us (Parse.varDeclaration t.pos us) := by
  have inside := tail_within within
  rw [varDeclaration]
  refine .get fun reports => ?_
  rw [previous_before within]
  refine Reads.bind (reads_demand _ inside) fun name rest _ suffix => ?_
  have inside := suffix.trans inside
  refine Reads.bind (reads_initializer inside) fun value rest _ suffix => ?_
  exact ((reads_demand _ (suffix.trans inside)).map _).succ

theorem reads_property (modifiers : Modifiers) (within : us <:+ body ts) :
    Reads pre ts (property (pre ++ ts) modifiers) us (Parse.property modifiers us) := by
  refine Reads.bind (reads_demand _ within) fun name rest _ suffix => ?_
  have inside := suffix.trans within
  refine Reads.bind (reads_initializer inside) fun value rest _ suffix => ?_
  exact ((reads_demand _ (suffix.trans inside)).map _).succ

theorem reads_parameterNames (us : List Token) (within : us <:+ body ts) :
    Reads pre ts (parameterNames (pre ++ ts)) us (Parse.parameterNames us) := by
  rw [parameterNames, Parse.parameterNames]
  refine Reads.bind (reads_demand _ within) fun name rest shorter suffix => ?_
  have inside := suffix.trans within
  cases rest with
  | nil => exact .refused inside rfl (.pure [name.lexeme] [])
  | cons t rest =>
      dsimp only
      split
      · rename_i comma
        refine .accepted inside comma ?_
        exact ((reads_parameterNames rest (tail_within inside)).map _).succ.succ
      · rename_i other
        exact .refused inside (decide_eq_false other) (.pure [name.lexeme] (t :: rest))
termination_by us.length
decreasing_by exact tail_lt_of_lt shorter

theorem reads_parameters (within : us <:+ body ts) :
    Reads pre ts (parameters (pre ++ ts)) us (Parse.parameters us) := by
  refine .get fun reports => ?_
  rw [check_before _ within, Parse.parameters]
  split
  · exact .pure [] us
  · exact (reads_parameterNames us within).succ

theorem reads_functionHead (within : us <:+ body ts) :
    Reads pre ts (functionHead (pre ++ ts)) us (Parse.functionHead us) := by
  refine Reads.bind (reads_demand _ within) fun name rest _ suffix => ?_
  have inside := suffix.trans within
  refine (Reads.bind (reads_demand _ inside) fun _ rest _ suffix => ?_).succ
  have inside := suffix.trans inside
  refine Reads.bind (reads_parameters inside) fun params rest _ suffix => ?_
  have inside := suffix.trans inside
  refine (Reads.bind (reads_demand _ inside) fun _ rest _ suffix => ?_).succ
  exact ((reads_demand _ (suffix.trans inside)).map _).succ

theorem reads_classHead (within : us <:+ body ts) :
    Reads pre ts (classHead (pre ++ ts)) us (Parse.classHead us) := by
  refine Reads.bind (reads_demand _ within) fun name rest _ suffix => ?_
  exact ((reads_demand _ (suffix.trans within)).map _).succ

theorem reads_returnValue (within : us <:+ body ts) :
    Reads pre ts (returnValue (pre ++ ts)) us (Parse.returnValue us) := by
  refine .get fun reports => ?_
  have same : (startsWith .semicolon us || startsWith .rightBrace us || us.isEmpty) =
      (us.isEmpty || startsWith .semicolon us || startsWith .rightBrace us) := by
    rw [Bool.or_comm, Bool.or_assoc]
  rw [check_before _ within, check_before _ within, atEnd_before within, same, Parse.returnValue]
  split
  · exact .pure none us
  · exact ((reads_expression us within).map _).succ

theorem reads_returnEnd (within : us <:+ body ts) :
    Reads pre ts (returnEnd (pre ++ ts)) us (Parse.returnEnd us) := by
  rw [returnEnd]
  cases us with
  | nil =>
      refine .refused within rfl (.get fun reports => ?_)
      rw [check_before _ within, atEnd_before within]
      exact .pure () []
  | cons t us =>
      rw [Parse.returnEnd]
      split
      · rename_i semicolon
        exact .accepted within semicolon (Reads.succ (.pure () us))
      · rename_i other
        refine .refused within (decide_eq_false other) (.get fun reports => ?_)
        rw [check_before _ within, atEnd_before within]
        by_cases brace : t.kind = .rightBrace
        · rw [if_pos brace, startsWith, if_pos (by simp [brace])]
          exact .pure () (t :: us)
        · rw [if_neg brace, startsWith, if_neg (by simp [brace])]
          exact Reads.succ (.blame within _ reports)

theorem reads_returnStatement (within : t :: us <:+ body ts) :
    Reads pre ts (returnStatement (pre ++ ts)) us (Parse.returnStatement t.pos us) := by
  have inside := tail_within within
  rw [returnStatement]
  refine .get fun reports => ?_
  rw [previous_before within]
  refine Reads.bind (reads_returnValue inside) fun value rest _ suffix => ?_
  exact (reads_returnEnd (suffix.trans inside)).map _

theorem reads_condition (opening closing : Expectation) (within : us <:+ body ts) :
    Reads pre ts (condition (pre ++ ts) opening closing) us
      (Parse.condition opening closing us) := by
  refine Reads.bind (reads_demand _ within) fun _ rest _ suffix => ?_
  have inside := suffix.trans within
  refine (Reads.bind (reads_expression rest inside) fun e rest _ suffix => ?_).succ
  exact ((reads_demand _ (suffix.trans inside)).map _).succ

theorem reads_loopStart (within : us <:+ body ts) :
    Reads pre ts (loopStart (pre ++ ts)) us (Parse.loopStart us) := by
  rw [loopStart]
  cases us with
  | nil =>
      refine .refused within rfl (.refused within rfl ?_)
      exact (reads_expressionStatement within).map _
  | cons t us =>
      rw [Parse.loopStart]
      split
      · rename_i semicolon
        exact .accepted within semicolon (.pure none us)
      · rename_i other
        refine .refused within (decide_eq_false other) ?_
        split
        · rename_i keyword
          exact .accepted within keyword ((reads_varDeclaration within).map _).succ
        · rename_i other'
          refine .refused within (decide_eq_false other') ?_
          exact (reads_expressionStatement within).map _

theorem reads_loopClause (closing : TokenKind) (within : us <:+ body ts) :
    Reads pre ts (loopClause (pre ++ ts) closing) us (Parse.loopClause closing us) := by
  refine .get fun reports => ?_
  rw [check_before _ within, Parse.loopClause]
  split
  · exact .pure none us
  · exact ((reads_expression us within).map _).succ

theorem reads_loopHead (within : us <:+ body ts) :
    Reads pre ts (loopHead (pre ++ ts)) us (Parse.loopHead us) := by
  refine Reads.bind (reads_demand _ within) fun _ rest _ suffix => ?_
  have inside := suffix.trans within
  refine (Reads.bind (reads_loopStart inside) fun start rest _ suffix => ?_).succ
  have inside := suffix.trans inside
  refine Reads.bind (reads_loopClause _ inside) fun test rest _ suffix => ?_
  have inside := suffix.trans inside
  refine (Reads.bind (reads_demand _ inside) fun _ rest _ suffix => ?_).succ
  have inside := suffix.trans inside
  refine Reads.bind (reads_loopClause _ inside) fun step rest _ suffix => ?_
  exact ((reads_demand _ (suffix.trans inside)).map _).succ

/-! ## Loops -/

theorem skip_eq (c : Cursor) :
    (skip ts).run c =
      if c.atEnd ts || (c.previous ts).kind = .semicolon || startsStatement (c.peek ts) then
        some ((), c)
      else (skip ts).run (c.advance ts) := by
  conv_lhs => rw [skip, StateT.run_bind, StateT.run_get]
  simp only [Option.pure_def, Option.bind_eq_bind, Option.bind_some]
  split
  · rfl
  · rfl

/-- Behind `t` the walk goes on to the place where reading is resumed after `t`. -/
theorem run_skip (us : List Token) (within : t :: us <:+ body ts) (reports : List Diagnostic) :
    (skip (pre ++ ts)).run (before pre ts us reports) =
      some ((), before pre ts (Parse.synchronize (t :: us)) reports) := by
  induction us generalizing t with
  | nil =>
      have rest : Parse.synchronize [t] = [] := by simp [Parse.synchronize]
      rw [skip_eq, atEnd_before List.nil_suffix, rest]
      rfl
  | cons u us ih =>
      have inside := tail_within within
      have next : (before pre ts (u :: us) reports).peek (pre ++ ts) = u := peek_before inside
      have rest : Parse.synchronize (t :: u :: us) =
          if t.kind = .semicolon || startsStatement u then u :: us
          else Parse.synchronize (u :: us) := rfl
      rw [skip_eq, atEnd_before inside, previous_before within, next, advance_before inside,
        List.tail_cons, ih inside, rest]
      simp only [List.isEmpty_cons, Bool.false_or]
      split
      · rfl
      · rfl

theorem run_synchronize (within : us <:+ body ts) (reports : List Diagnostic) :
    (synchronize (pre ++ ts)).run (before pre ts us reports) =
      some ((), before pre ts (Parse.synchronize us) reports) := by
  have run : (synchronize (pre ++ ts)).run (before pre ts us reports) =
      (skip (pre ++ ts)).run ((before pre ts us reports).advance (pre ++ ts)) := rfl
  rw [run, advance_before within]
  cases us with
  | nil =>
      rw [skip_eq, List.tail_nil, atEnd_before List.nil_suffix]
      rfl
  | cons t us => exact run_skip us within reports

/-- A fault is reported and got over. -/
theorem run_settle {x : Trial Stmt} {a : Attempt Stmt n} (h : Agrees pre ts x us a)
    (within : us <:+ body ts) (reports : List Diagnostic) :
    (x.run >>= settle (pre ++ ts)).run (before pre ts us reports) =
      some (a.kept,
        before pre ts a.resumed (reports ++ a.faults.map (Fault.locate (last ts)))) := by
  rw [StateT.run_bind, h.runs reports]
  obtain ⟨log, result⟩ := a
  cases result with
  | ok => rfl
  | error fault rest bounded =>
      have left : rest <:+ body ts := h.rest_suffix.trans within
      have run (c : Cursor) (d : Diagnostic) : (settle (pre ++ ts) (.error d)).run c =
          ((synchronize (pre ++ ts)).run (c.report d)).bind fun left => some (none, left.2) := rfl
      have report (reports : List Diagnostic) (d : Diagnostic) :
          (before pre ts rest reports).report d = before pre ts rest (reports ++ [d]) := rfl
      simp only [Parsed.outcome, Parsed.rest, Option.bind_eq_bind, Option.bind_some, run, report,
        run_synchronize left]
      simp [Attempt.kept, Attempt.resumed, Attempt.faults]

/-- A loop comes to what is gathered, whatever was reported before, and what it blames is in
order. -/
structure Gathers (pre ts : List Token) (w : Walk (List Stmt)) (us : List Token)
    (s : Sequence Stmt n) : Prop where
  blamed : Blamed us s.log s.rest
  runs : ∀ reports, w.run (before pre ts us reports) =
    some (s.items, before pre ts s.rest (reports ++ s.log.map (Fault.locate (last ts))))

/-- One round of a loop over statements: it stops, or makes a step and goes on with `others`. -/
def round (stops : Cursor → Bool) (step : Walk (Option Stmt)) (others : Walk (List Stmt)) :
    Walk (List Stmt) := do
  if stops (← get) then return []
  else
    match ← step with
    | some s =>
        let others ← others
        return s :: others
    | none => others

theorem statements_eq (ts : List Token) :
    statements ts = round (fun c => c.check ts .rightBrace || c.atEnd ts)
      ((statement ts).run >>= settle ts) (statements ts) := by
  conv_lhs => rw [statements, declaration]
  rfl

theorem members_eq (ts : List Token) :
    members ts = round (fun c => c.check ts .rightBrace || c.atEnd ts)
      ((classMember ts).run >>= settle ts) (members ts) := by
  conv_lhs => rw [members, member]
  rfl

theorem program_eq (ts : List Token) :
    program ts = round (fun c => c.atEnd ts) ((statement ts).run >>= settle ts) (program ts) := by
  conv_lhs => rw [program, declaration]
  rfl

section Loop

variable {w : Walk (List Stmt)} {x : Trial Stmt} {stops : Cursor → Bool}
  (rounds : w = round stops (x.run >>= settle (pre ++ ts)) w)
include rounds

theorem run_loop (c : Cursor) :
    w.run c = if stops c then some ([], c) else
      ((x.run >>= settle (pre ++ ts)).run c).bind fun step =>
        (w.run step.2).map fun others => (step.1.toList ++ others.1, others.2) := by
  conv_lhs => rw [rounds, round, StateT.run_bind, StateT.run_get]
  simp only [Option.pure_def, Option.bind_eq_bind, Option.bind_some]
  split
  · rfl
  · rw [StateT.run_bind]
    refine Option.bind_congr fun step _ => ?_
    obtain ⟨kept, c⟩ := step
    cases kept with
    | none => simp
    | some s =>
        dsimp only
        rw [StateT.run_bind]
        cases w.run c <;> rfl

theorem gathers_loop {closes : Token → Bool} {rule : UpTo Attempt Stmt n}
    (stop : ∀ us reports, us <:+ body ts →
      stops (before pre ts us reports) = us.head?.all closes)
    (agrees : ∀ us h, us <:+ body ts → Agrees pre ts x us (rule us h)) :
    ∀ (us : List Token) (h : us.length ≤ n), us <:+ body ts →
      Gathers pre ts w us (Parse.sequence rule closes us h)
  | [], h, within => by
      rw [Parse.sequence]
      refine ⟨.nil List.suffix_rfl, fun reports => ?_⟩
      rw [run_loop rounds, stop [] reports within, List.map_nil, List.append_nil]
      rfl
  | t :: us, h, within => by
      cases closing : closes t with
      | true =>
          rw [Parse.sequence, if_pos closing]
          refine ⟨.nil List.suffix_rfl, fun reports => ?_⟩
          rw [run_loop rounds, stop (t :: us) reports within, List.map_nil, List.append_nil]
          simp [closing]
      | false =>
          -- The attempt uses up a token at least, so the rest of the loop has fewer.
          have tried := agrees (t :: us) h within
          have left := tried.orderly.settled
          have shorter := (rule (t :: us) h).resumed_lt
          have others := gathers_loop stop agrees (rule (t :: us) h).resumed
            (Parse.le_of_lt_of_le shorter h) (left.rest_suffix.trans within)
          obtain ⟨items, log, rest⟩ := sequence_cons (h := h) rfl closing
          refine ⟨?_, fun reports => ?_⟩
          · rw [log, rest]
            exact left.trans others.blamed
          · rw [run_loop rounds, stop (t :: us) reports within, run_settle tried within, items,
              log, rest]
            simp [closing, others.runs]
termination_by us => us.length
decreasing_by exact shorter

end Loop

/-- A rule goes on where a loop has ended. -/
theorem Gathers.bind {β : Type} {w : Walk (List Stmt)} {s : Sequence Stmt n}
    {f : List Stmt → Trial β} {g : List Stmt → (rest : List Token) → Parsed β (rest.length + 1)}
    (h : Gathers pre ts w us s)
    (next : s.rest <:+ us → Reads pre ts (f s.items) s.rest (g s.items s.rest)) :
    Agrees pre ts (do
      let body ← (.ok <$> w : Walk (Except Diagnostic (List Stmt)))
      f body) us (s.andThen g) := by
  have later := next h.blamed.rest_suffix
  have first := h.blamed
  constructor
  · have second := later.orderly
    rw [Sequence.andThen]
    generalize g s.items s.rest = answer at second
    cases answer with
    | ok => exact first.shrink (Blamed.rest_suffix second)
    | error =>
        exact ⟨second.1.trans first.rest_suffix, first.trans second.2.1, second.2.2⟩
  · intro reports
    have second := later.runs (reports ++ s.log.map (Fault.locate (last ts)))
    have run (c : Cursor) : (do
        let body ← (.ok <$> w : Walk (Except Diagnostic (List Stmt)))
        f body : Trial β).run.run c = (w.run c).bind fun left => (f left.1).run.run left.2 := by
      have lifted : StateT.run (.ok <$> w : Walk (Except Diagnostic (List Stmt))) c =
          (w.run c).map fun left => (.ok left.1, left.2) := StateT.run_map ..
      rw [ExceptT.run_bind, StateT.run_bind]
      change (StateT.run (.ok <$> w : Walk (Except Diagnostic (List Stmt))) c).bind _ = _
      rw [lifted]
      cases w.run c <;> rfl
    rw [run, h.runs, Option.bind_some, second, Sequence.andThen]
    generalize g s.items s.rest = answer
    cases answer with
    | ok => simp [Attempt.clean, Parsed.mono, Parsed.outcome, Parsed.rest]
    | error => simp [Attempt.clean, Parsed.mono, Parsed.outcome, Parsed.rest]

/-! ## Statements -/

theorem stops_before (us : List Token) (reports : List Diagnostic) (within : us <:+ body ts) :
    ((before pre ts us reports).check (pre ++ ts) .rightBrace ||
      (before pre ts us reports).atEnd (pre ++ ts)) = us.head?.all closesBody := by
  rw [check_before _ within, atEnd_before within]
  cases us with
  | nil => rfl
  | cons t us => exact Bool.or_false _

section Rules

variable {rule : UpTo Attempt Stmt n}
  (agrees : ∀ us h, us <:+ body ts → Agrees pre ts (statement (pre ++ ts)) us (rule us h))
include agrees

theorem agrees_blockBody (within : us <:+ body ts) (h : us.length ≤ n) :
    Agrees pre ts (block (pre ++ ts)) us (blockBody rule us h) := by
  have inner := gathers_loop (statements_eq _) stops_before agrees us h within
  have closed : ∀ t ∈ (Parse.sequence rule closesBody us h).rest.head?, closesBody t :=
    sequence_rest h
  rw [block]
  refine inner.bind fun suffix => ?_
  generalize (Parse.sequence rule closesBody us h).rest = rest at closed suffix ⊢
  have inside := suffix.trans within
  cases rest with
  | nil => exact .bind_accept_false inside rfl (.pure _ [])
  | cons t rest =>
      have brace : t.kind = .rightBrace := by simpa [closesBody] using closed t rfl
      exact .bind_accept inside brace (Reads.succ (.pure _ rest))

theorem agrees_function (modifiers : Modifiers) (within : us <:+ body ts) (h : us.length ≤ n) :
    Agrees pre ts (function (pre ++ ts) modifiers) us (Parse.function rule modifiers us h) := by
  rw [function]
  refine Agrees.bind (reads_functionHead within) fun head rest _ suffix => ?_
  exact (agrees_blockBody agrees (suffix.trans within) _).map _

theorem agrees_modified (modifiers : Modifiers) (within : us <:+ body ts) (h : us.length ≤ n) :
    Agrees pre ts (modified (pre ++ ts) modifiers) us (Parse.modified rule modifiers us h) := by
  rw [modified]
  cases us with
  | nil => exact .refused within rfl (reads_property modifiers within)
  | cons t us =>
      rw [Parse.modified]
      split
      · rename_i keyword
        exact .accepted within keyword
          (agrees_function agrees modifiers (tail_within within) _).succ
      · rename_i other
        exact .refused within (decide_eq_false other) (reads_property modifiers within)

theorem agrees_classMember (us : List Token) (h : us.length ≤ n) (within : us <:+ body ts) :
    Agrees pre ts (classMember (pre ++ ts)) us (Parse.classMember rule us h) := by
  rw [classMember]
  cases us with
  | nil =>
      iterate 4 refine .refused within rfl ?_
      exact reads_property {} within
  | cons t us =>
      obtain ⟨kind, lexeme, pos⟩ := t
      cases kind with
      | kwFunction =>
          exact .accepted within rfl (agrees_function agrees {} (tail_within within) _).succ
      | kwPublic =>
          refine .refused within rfl (.accepted within rfl ?_)
          exact (agrees_modified agrees _ (tail_within within) _).succ
      | kwPrivate =>
          iterate 2 refine .refused within rfl ?_
          exact .accepted within rfl (agrees_modified agrees _ (tail_within within) _).succ
      | kwStatic =>
          iterate 3 refine .refused within rfl ?_
          exact .accepted within rfl (agrees_modified agrees _ (tail_within within) _).succ
      | _ =>
          iterate 4 refine .refused within rfl ?_
          exact reads_property {} within

theorem agrees_classDeclaration (isStatic : Bool) (pos : Position) (within : us <:+ body ts)
    (h : us.length ≤ n) :
    Agrees pre ts (classDeclaration (pre ++ ts) isStatic pos) us
      (Parse.classDeclaration rule isStatic pos us h) := by
  rw [classDeclaration]
  refine Agrees.bind (reads_classHead within) fun name rest shorter suffix => ?_
  have inside := suffix.trans within
  refine (gathers_loop (members_eq _) stops_before (agrees_classMember agrees) rest
    (Parse.le_of_lt_of_le shorter h) inside).bind fun suffix => ?_
  exact ((reads_demand _ (suffix.trans inside)).map _).succ

end Rules

section Nested

variable {nested : Below Attempt Stmt n}
  (agrees : ∀ us h, us <:+ body ts → Agrees pre ts (statement (pre ++ ts)) us (nested us h))
include agrees

theorem agrees_alternative (within : us <:+ body ts) (h : us.length ≤ n) :
    Agrees pre ts (alternative (pre ++ ts)) us (Parse.alternative nested us h) := by
  rw [alternative]
  cases us with
  | nil => exact .refused within rfl (.pure none [])
  | cons t us =>
      rw [Parse.alternative]
      split
      · rename_i keyword
        exact .accepted within keyword ((agrees us _ (tail_within within)).map _).succ.succ
      · rename_i other
        exact .refused within (decide_eq_false other) (.pure none (t :: us))

theorem agrees_branch (within : t :: us <:+ body ts) (h : us.length ≤ n) :
    Agrees pre ts (branch (pre ++ ts)) us (Parse.branch nested t.pos us h) := by
  have inside := tail_within within
  rw [branch]
  refine .get fun reports => ?_
  rw [previous_before within]
  refine Agrees.bind (reads_condition _ _ inside) fun test rest _ suffix => ?_
  have inside := suffix.trans inside
  refine ((agrees rest _ inside).bind fun consequent rest _ suffix => ?_).succ
  exact (agrees_alternative agrees (suffix.trans inside) _).map _

theorem agrees_whileLoop (within : t :: us <:+ body ts) (h : us.length ≤ n) :
    Agrees pre ts (whileLoop (pre ++ ts)) us (Parse.whileLoop nested t.pos us h) := by
  have inside := tail_within within
  rw [whileLoop]
  refine .get fun reports => ?_
  rw [previous_before within]
  refine Agrees.bind (reads_condition _ _ inside) fun test rest _ suffix => ?_
  exact ((agrees rest _ (suffix.trans inside)).map _).succ

theorem agrees_forLoop (within : t :: us <:+ body ts) (h : us.length ≤ n) :
    Agrees pre ts (forLoop (pre ++ ts)) us (Parse.forLoop nested t.pos us h) := by
  have inside := tail_within within
  rw [forLoop]
  refine .get fun reports => ?_
  rw [previous_before within]
  refine Agrees.bind (reads_loopHead inside) fun head rest _ suffix => ?_
  exact ((agrees rest _ (suffix.trans inside)).map _).succ

theorem agrees_statementFrom (within : t :: us <:+ body ts) (h : us.length < n) :
    Agrees pre ts (statement (pre ++ ts)) (t :: us) (statementFrom nested t us h) := by
  have inside := tail_within within
  have rules : ∀ rest (le : rest.length ≤ us.length), rest <:+ body ts →
      Agrees pre ts (statement (pre ++ ts)) rest (nested rest (Nat.lt_of_le_of_lt le h)) :=
    fun rest _ within => agrees rest _ within
  rw [statement]
  obtain ⟨kind, lexeme, pos⟩ := t
  cases kind with
  | kwVar => exact .accepted within rfl (reads_varDeclaration within).succ
  | kwStatic =>
      refine .refused within rfl (.accepted within rfl (.get fun reports => ?_))
      rw [previous_before within]
      refine (Agrees.bind (reads_demand _ inside) fun _ rest _ suffix => ?_).succ
      exact (agrees_classDeclaration rules _ _ (suffix.trans inside) _).succ
  | kwClass =>
      iterate 2 refine .refused within rfl ?_
      refine .accepted within rfl (.get fun reports => ?_)
      rw [previous_before within]
      exact (agrees_classDeclaration rules _ _ inside _).succ
  | kwFunction =>
      iterate 3 refine .refused within rfl ?_
      exact .accepted within rfl (agrees_function rules _ inside _).succ
  | kwReturn =>
      iterate 4 refine .refused within rfl ?_
      exact .accepted within rfl (reads_returnStatement within)
  | kwIf =>
      iterate 5 refine .refused within rfl ?_
      exact .accepted within rfl (agrees_branch agrees within _).succ
  | kwWhile =>
      iterate 6 refine .refused within rfl ?_
      exact .accepted within rfl (agrees_whileLoop agrees within _).succ
  | kwFor =>
      iterate 7 refine .refused within rfl ?_
      exact .accepted within rfl (agrees_forLoop agrees within _).succ
  | leftBrace =>
      iterate 8 refine .refused within rfl ?_
      refine .accepted within rfl (.get fun reports => ?_)
      rw [previous_before within]
      exact (agrees_blockBody rules inside _).map _
  | _ =>
      iterate 9 refine .refused within rfl ?_
      exact reads_expressionStatement within

end Nested

theorem agrees_statement (us : List Token) (within : us <:+ body ts) :
    Agrees pre ts (statement (pre ++ ts)) us (Parse.statement us) := by
  cases us with
  | nil =>
      rw [statement, Parse.statement]
      iterate 9 refine .refused within rfl ?_
      exact reads_expressionStatement within
  | cons t us =>
      rw [Parse.statement]
      exact agrees_statementFrom (fun shorter _ inside => agrees_statement shorter inside) within _
termination_by us.length

end Scriptlet.Tokens
