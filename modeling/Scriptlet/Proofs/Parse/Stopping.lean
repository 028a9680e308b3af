import Scriptlet.Parse.Statement
import Scriptlet.Proofs.Completeness.Strata

/-! # Where expressions end

No rule for expressions takes a token that stands in no expression. What follows such a token has no
influence: the answer is the one to the tokens in front of it, fault or not. -/

namespace Scriptlet

/-- Whether a token of the kind can stand in an expression. -/
def TokenKind.inExpression (kind : TokenKind) : Bool :=
  Stratum.assignment.starts kind || kind.continues?.isSome || kind = .comma || kind = .rightParen

theorem BinaryOp.inExpression_kind (op : BinaryOp) : op.kind.inExpression := by
  cases op <;> rfl

theorem UnaryOp.inExpression_kind (op : UnaryOp) : op.kind.inExpression := by
  cases op <;> rfl

theorem AssignOp.inExpression_kind (op : AssignOp) : op.kind.inExpression := by
  cases op <;> rfl

namespace Parse

variable {α β : Type} {m n : Nat} {ts tail : List Token}

/-- The tokens are none, or the first one stands in no expression. -/
def Barred (tail : List Token) : Prop :=
  ∀ t ∈ tail.head?, t.kind.inExpression = false

theorem barred_nil : Barred [] := by
  simp [Barred]

theorem Barred.startsWith (bars : Barred tail) (kind : TokenKind) (h : kind.inExpression) :
    startsWith kind tail = false := by
  cases tail with
  | nil => rfl
  | cons t tail =>
      have apart : t.kind ≠ kind := by
        rintro rfl
        simp [bars t rfl] at h
      simp [Parse.startsWith, apart]

/-! ## Answers to more tokens -/

/-- The tokens left, or those from where the fault was noticed. -/
def Parsed.rest : Parsed α n → List Token
  | .ok _ rest _ | .error _ rest _ => rest

theorem Parsed.rest_of_read? {x : Parsed α n} {value : α} {rest : List Token}
    (h : x.read? = some (value, rest)) : x.rest = rest := by
  cases x with
  | ok => exact congrArg Prod.snd (Option.some.inj h)
  | error => cases h

/-- The second answer is the first one, with more tokens behind those that are left. What is left is
an end of `ts`. -/
inductive Follows (ts tail : List Token) : Parsed α m → Parsed α n → Prop where
  | ok {value : α} {rest : List Token} {h h'} : rest <:+ ts →
      Follows ts tail (.ok value rest h) (.ok value (rest ++ tail) h')
  | error {fault fault' : Fault} {rest : List Token} {h h'} : rest <:+ ts →
      Follows ts tail (.error fault rest h) (.error fault' (rest ++ tail) h')

namespace Follows

theorem done (value : α) (ts tail : List Token) :
    Follows ts tail (.done value ts) (.done value (ts ++ tail)) :=
  .ok List.suffix_rfl

theorem take (value : α) (t : Token) (ts tail : List Token) :
    Follows (t :: ts) tail (.take value t ts) (.take value t (ts ++ tail)) :=
  .ok (List.suffix_cons t ts)

theorem fail (fault fault' : Fault) (ts tail : List Token) :
    Follows ts tail (.fail fault ts : Parsed α _) (.fail fault' (ts ++ tail)) :=
  .error List.suffix_rfl

variable {x : Parsed α m} {y : Parsed α n}

theorem mono {m' n' : Nat} (h : Follows ts tail x y) (le : m ≤ m') (le' : n ≤ n') :
    Follows ts tail (x.mono le) (y.mono le') := by
  cases h with
  | ok suffix => exact .ok suffix
  | error suffix => exact .error suffix

theorem succ (h : Follows ts tail x y) : Follows ts tail x.succ y.succ :=
  h.mono _ _

theorem of_suffix {rest : List Token} (h : Follows rest tail x y) (suffix : rest <:+ ts) :
    Follows ts tail x y := by
  cases h with
  | ok left => exact .ok (left.trans suffix)
  | error left => exact .error (left.trans suffix)

/-- The first token is used up before. -/
theorem cons {t : Token} (h : Follows ts tail x y) : Follows (t :: ts) tail x.succ y.succ :=
  h.succ.of_suffix (List.suffix_cons t ts)

theorem map (h : Follows ts tail x y) (f : α → β) : Follows ts tail (x.map f) (y.map f) := by
  cases h with
  | ok suffix => exact .ok suffix
  | error suffix => exact .error suffix

theorem andThen {f : α → (rest : List Token) → rest.length < m → Parsed β (rest.length + 1)}
    {g : α → (rest : List Token) → rest.length < n → Parsed β (rest.length + 1)}
    (h : Follows ts tail x y)
    (next : ∀ value rest shorter shorter',
      Follows rest tail (f value rest shorter) (g value (rest ++ tail) shorter')) :
    Follows ts tail (x.andThen f) (y.andThen g) := by
  cases h with
  | @ok value rest shorter shorter' suffix =>
      exact ((next value rest shorter shorter').mono shorter shorter').of_suffix suffix
  | error suffix => exact .error suffix

theorem rest_suffix (h : Follows ts tail x y) : x.rest <:+ ts := by
  cases h with
  | ok suffix => exact suffix
  | error suffix => exact suffix

theorem read?_iff (h : Follows ts tail x y) {value : α} {left : List Token} :
    y.read? = some (value, left) ↔
      ∃ rest, rest <:+ ts ∧ x.read? = some (value, rest) ∧ left = rest ++ tail := by
  cases h with
  | @ok value' rest _ _ suffix =>
      simp only [Parsed.read?, Option.some.injEq, Prod.mk.injEq]
      constructor
      · rintro ⟨rfl, rfl⟩
        exact ⟨rest, suffix, ⟨rfl, rfl⟩, rfl⟩
      · rintro ⟨rest, -, ⟨rfl, rfl⟩, rfl⟩
        exact ⟨rfl, rfl⟩
  | error => simp [Parsed.read?]

/-- If the answer is a fault, so is the answer to more tokens, and it is noticed at the same
place. -/
theorem eq_error (h : Follows ts tail x y) (failed : x.read? = none) :
    ∃ fault bounded, y = .error fault (x.rest ++ tail) bounded := by
  cases h with
  | ok => cases failed
  | error => exact ⟨_, _, rfl⟩

end Follows

theorem follows_expect {what : Expectation} (apart : startsWith what.kind tail = false)
    (ts : List Token) : Follows ts tail (expect what ts) (expect what (ts ++ tail)) := by
  cases ts with
  | cons t ts =>
      rw [List.cons_append, expect, expect]
      split
      · exact .take t t ts tail
      · exact .fail _ _ (t :: ts) tail
  | nil =>
      cases tail with
      | nil => exact .fail _ _ [] []
      | cons t tail =>
          have other : t.kind ≠ what.kind := by simpa [startsWith] using apart
          rw [List.nil_append, expect, expect, if_neg other]
          exact .fail _ _ [] (t :: tail)

theorem startsWith_append {kind : TokenKind} (apart : startsWith kind tail = false)
    (ts : List Token) : startsWith kind (ts ++ tail) = startsWith kind ts := by
  cases ts with
  | nil => exact apart
  | cons t ts => rfl

/-! ## The rules -/

theorem operations_of_barred {level : Level} (bars : Barred tail)
    (table : ∀ kind op, level.lookup kind = some op → kind.inExpression)
    (operand : UpTo Parsed Expr n) (left : Expr) (h : tail.length ≤ n) :
    operations level operand left tail h = .done left tail := by
  cases tail with
  | nil => rw [operations]
  | cons t tail =>
      have absent : level.lookup t.kind = none := by
        rw [Option.eq_none_iff_forall_ne_some]
        intro op found
        have bar := bars t rfl
        simp [table _ _ found] at bar
      simp only [operations, absent]

theorem follows_operations {level : Level} {operand : UpTo Parsed Expr m}
    {operand' : UpTo Parsed Expr n} (bars : Barred tail)
    (table : ∀ kind op, level.lookup kind = some op → kind.inExpression)
    (follows : ∀ ts h h', Follows ts tail (operand ts h) (operand' (ts ++ tail) h')) :
    ∀ (left : Expr) (ts : List Token) (h : ts.length ≤ m) (h' : (ts ++ tail).length ≤ n),
      Follows ts tail (operations level operand left ts h)
        (operations level operand' left (ts ++ tail) h')
  | left, [], h, h' => by
      have first := operations_of_barred barred_nil table operand left h
      have second := operations_of_barred bars table operand' left h'
      rw [first]
      exact second ▸ .done left [] tail
  | left, t :: ts, h, h' => by
      simp only [List.cons_append, operations]
      split
      · refine (Follows.andThen (follows ts _ _) fun right rest shorter _ => ?_).cons.succ
        exact follows_operations bars table follows _ rest _ _
      · exact .done left (t :: ts) tail
termination_by _ ts => ts.length
decreasing_by exact Nat.lt_succ_of_lt shorter

theorem postfixes_of_barred (bars : Barred tail) (nested : Below Parsed Expr n) (e : Expr)
    (h : tail.length ≤ n) : postfixes nested e tail h = .done e tail := by
  cases tail with
  | nil => rw [postfixes]
  | cons t tail =>
      have paren : t.kind ≠ .leftParen := by
        simpa [startsWith] using bars.startsWith .leftParen rfl
      have dot : t.kind ≠ .dot := by
        simpa [startsWith] using bars.startsWith .dot rfl
      rw [postfixes, if_neg paren, if_neg dot]

theorem primary_of_barred (bars : Barred tail) (nested : Below Parsed Expr n)
    (h : tail.length ≤ n) : ∃ fault, primary nested tail h = .fail fault tail := by
  cases tail with
  | nil => exact ⟨_, rfl⟩
  | cons t tail =>
      have bar := bars t rfl
      simp only [primary]
      split
      case h_10 => exact ⟨_, rfl⟩
      all_goals
        rename_i kind
        rw [kind] at bar
        cases bar

section Rules

variable {nested : Below Parsed Expr m} {nested' : Below Parsed Expr n} (bars : Barred tail)
  (follows : ∀ ts h h', Follows ts tail (nested ts h) (nested' (ts ++ tail) h'))
include bars follows

theorem follows_primary (ts : List Token) (h : ts.length ≤ m) (h' : (ts ++ tail).length ≤ n) :
    Follows ts tail (primary nested ts h) (primary nested' (ts ++ tail) h') := by
  cases ts with
  | cons t ts =>
      simp only [List.cons_append, primary]
      split
      · exact .take _ t ts tail
      · exact .take _ t ts tail
      · exact .take _ t ts tail
      · split
        · exact .take _ t ts tail
        · exact .fail _ _ (t :: ts) tail
      · exact .take _ t ts tail
      · exact ((follows_expect (bars.startsWith _ rfl) ts).map _).cons
      · exact .take _ t ts tail
      · exact .take _ t ts tail
      · refine (Follows.andThen (follows ts _ _) fun e rest _ _ => ?_).cons
        exact ((follows_expect (bars.startsWith _ rfl) rest).map _).succ
      · exact .fail _ _ (t :: ts) tail
  | nil =>
      obtain ⟨fault, failed⟩ := primary_of_barred bars nested' h'
      exact failed ▸ .fail _ fault [] tail

theorem follows_arguments (ts : List Token) (h : ts.length < m) (h' : (ts ++ tail).length < n) :
    Follows ts tail (arguments nested ts h) (arguments nested' (ts ++ tail) h') := by
  rw [arguments, arguments]
  refine Follows.andThen (follows ts _ _) fun e rest shorter _ => ?_
  cases rest with
  | cons t rest =>
      simp only [List.cons_append]
      split
      · exact ((follows_arguments rest _ _).map _).cons.succ
      · exact .done [e] (t :: rest) tail
  | nil =>
      cases tail with
      | nil => exact .done [e] [] []
      | cons t tail =>
          have other : t.kind ≠ .comma := by
            simpa [startsWith] using bars.startsWith .comma rfl
          simp only [List.nil_append, if_neg other]
          exact .done [e] [] (t :: tail)
termination_by ts.length
decreasing_by exact tail_lt_of_lt shorter

theorem follows_callArguments (ts : List Token) (h : ts.length < m)
    (h' : (ts ++ tail).length < n) :
    Follows ts tail (callArguments nested ts h) (callArguments nested' (ts ++ tail) h') := by
  have apart : startsWith Expectation.argumentsEnd.kind tail = false := bars.startsWith _ rfl
  have same : startsWith .rightParen (ts ++ tail) = startsWith .rightParen ts :=
    startsWith_append apart ts
  unfold callArguments
  rw [same]
  split
  · exact (follows_expect apart ts).map _
  · refine Follows.andThen (follows_arguments bars follows ts _ _) fun args rest _ _ => ?_
    exact ((follows_expect apart rest).map _).succ

theorem follows_postfixes :
    ∀ (e : Expr) (ts : List Token) (h : ts.length ≤ m) (h' : (ts ++ tail).length ≤ n),
      Follows ts tail (postfixes nested e ts h) (postfixes nested' e (ts ++ tail) h')
  | e, [], h, h' => by
      have first := postfixes_of_barred barred_nil nested e h
      have second := postfixes_of_barred bars nested' e h'
      rw [first]
      exact second ▸ .done e [] tail
  | e, t :: ts, h, h' => by
      simp only [List.cons_append, postfixes]
      split
      · refine (Follows.andThen (follows_callArguments bars follows ts _ _)
          fun call rest shorter _ => ?_).cons.succ
        exact follows_postfixes _ rest _ _
      · split
        · refine (Follows.andThen (follows_expect (bars.startsWith _ rfl) ts)
            fun name rest shorter _ => ?_).cons.succ
          exact follows_postfixes _ rest _ _
        · exact .done e (t :: ts) tail
termination_by _ ts => ts.length
decreasing_by all_goals exact Nat.lt_succ_of_lt shorter

theorem follows_call (ts : List Token) (h : ts.length ≤ m) (h' : (ts ++ tail).length ≤ n) :
    Follows ts tail (call nested ts h) (call nested' (ts ++ tail) h') :=
  (follows_primary bars follows ts h h').andThen fun e rest _ _ =>
    follows_postfixes bars follows e rest _ _

theorem follows_unary (ts : List Token) (h : ts.length ≤ m) (h' : (ts ++ tail).length ≤ n) :
    Follows ts tail (unary nested ts h) (unary nested' (ts ++ tail) h') := by
  induction ts with
  | cons t ts ih =>
      simp only [List.cons_append, unary]
      split
      · exact ((ih _ _).map _).cons
      · exact follows_call bars follows (t :: ts) h h'
  | nil =>
      have called := follows_call bars follows [] h h'
      cases tail with
      | nil => exact called
      | cons t tail =>
          have absent : unaryOp? t.kind = none := by
            rw [Option.eq_none_iff_forall_ne_some]
            intro op found
            have bar := bars t rfl
            rw [← unaryOp?_eq_some.mp found, op.inExpression_kind] at bar
            cases bar
          simp only [List.nil_append, unary, absent]
          exact called

theorem follows_binary {levels : List Level} {p : Stratum} (strata : Stratified levels p)
    (ts : List Token) (h : ts.length ≤ m) (h' : (ts ++ tail).length ≤ n) :
    Follows ts tail (binary nested levels ts h) (binary nested' levels (ts ++ tail) h') := by
  induction levels generalizing p ts with
  | nil => exact follows_unary bars follows ts h h'
  | cons level tighter ih =>
      obtain ⟨table, strata⟩ := strata
      have spelled : ∀ kind op, level.lookup kind = some op → kind.inExpression := by
        intro kind op found
        obtain ⟨-, rfl⟩ := (table kind op).mp found
        exact op.inExpression_kind
      exact (ih strata ts h h').andThen fun left rest _ _ =>
        follows_operations bars spelled (ih strata) left rest _ _

theorem follows_assignment (ts : List Token) (h : ts.length ≤ m) (h' : (ts ++ tail).length ≤ n) :
    Follows ts tail (assignment nested ts h) (assignment nested' (ts ++ tail) h') := by
  refine (follows_binary bars follows levels_stratified ts h h').andThen
    fun target rest shorter _ => ?_
  cases rest with
  | cons t rest =>
      simp only [List.cons_append]
      split
      · refine (Follows.andThen (follows rest _ _) fun value rest _ _ => ?_).cons.succ
        split
        · exact .done _ rest tail
        · exact (Follows.fail _ _ rest tail).succ
      · exact .done target (t :: rest) tail
  | nil =>
      cases tail with
      | nil => exact .done target [] []
      | cons t tail =>
          have absent : assignOp? t.kind = none := by
            rw [Option.eq_none_iff_forall_ne_some]
            intro op found
            have bar := bars t rfl
            rw [← assignOp?_eq_some.mp found, op.inExpression_kind] at bar
            cases bar
          simp only [List.nil_append, absent]
          exact .done target [] (t :: tail)

end Rules

/-- The answer to tokens that are followed by one that stands in no expression is the answer to
them alone. -/
theorem follows_expression (bars : Barred tail) (ts : List Token) :
    Follows ts tail (expression ts) (expression (ts ++ tail)) := by
  rw [expression, expression]
  exact follows_assignment bars (fun shorter _ _ => follows_expression bars shorter) ts _ _
termination_by ts.length

theorem barred_dropWhile (ts : List Token) : Barred (ts.dropWhile (·.kind.inExpression)) := by
  intro t found
  have stop := List.head?_dropWhile_not (fun t : Token => t.kind.inExpression) ts
  rw [Option.mem_def.mp found] at stop
  simpa using stop

/-- The same holds of an expression and its semicolon. -/
theorem follows_expressionStatement (bars : Barred tail)
    (apart : startsWith Expectation.expressionEnd.kind tail = false) (ts : List Token) :
    Follows ts tail (expressionStatement ts) (expressionStatement (ts ++ tail)) :=
  (follows_expression bars ts).andThen fun _ rest _ _ =>
    ((follows_expect apart rest).map _).succ

end Parse

end Scriptlet
