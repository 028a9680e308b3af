import Scriptlet.Proofs.Parse.Reading
import Scriptlet.Proofs.Syntax.Likeness

/-! # Like tokens are read alike

The rules look at the kinds and the spelling of tokens only, and copy their places into what they
build and report. So two token lists that differ in places only are read to like trees, and rejected
for the same causes at related places. -/

namespace Scriptlet

/-! ## Tokens and faults -/

inductive Token.Alike (pos : Position → Position → Prop) : Token → Token → Prop where
  | mk {kind : TokenKind} {lexeme : String} {p q : Position} (place : pos p q) :
      Alike pos ⟨kind, lexeme, p⟩ ⟨kind, lexeme, q⟩

/-- The same cause at related places, or twice at the end of the tokens. -/
inductive Fault.Alike (pos : Position → Position → Prop) : Fault → Fault → Prop where
  | mk {cause : SyntaxCause} {p q : Option Position} (place : Option.Rel pos p q) :
      Alike pos ⟨cause, p⟩ ⟨cause, q⟩

/-- The same cause at related places. -/
inductive Diagnostic.Alike (pos : Position → Position → Prop) : Diagnostic → Diagnostic → Prop where
  | mk {cause : SyntaxCause} {p q : Position} (place : pos p q) : Alike pos ⟨cause, p⟩ ⟨cause, q⟩

theorem Fault.Alike.locate {pos : Position → Position → Prop} {fault fault' : Fault}
    {last last' : Position} (h : Alike pos fault fault') (ends : pos last last') :
    Diagnostic.Alike pos (fault.locate last) (fault'.locate last') := by
  obtain ⟨place⟩ := h
  cases place with
  | some place => exact ⟨place⟩
  | none => exact ⟨ends⟩

namespace Likeness

variable (L : Likeness)

abbrev Tokens : List Token → List Token → Prop :=
  List.Forall₂ (Token.Alike L.pos)

variable {L} {e e' : Expr} {s s' : Stmt}

theorem pos_of_expr (h : L.expr e e') : L.pos e.pos e'.pos := by
  cases L.expr_iff.mp h <;> assumption

theorem isTarget_of_expr (h : L.expr e e') : e.isTarget = e'.isTarget := by
  cases L.expr_iff.mp h <;> rfl

end Likeness

namespace Parse

variable {α β : Type} {m n : Nat} {L : Likeness} {ts ts' : List Token}

/-! ## Answers -/

/-- The same kind of answer: like values or like faults, with the same tokens left. -/
inductive Parsed.Alike (L : Likeness) (R : α → α → Prop) : Parsed α m → Parsed α n → Prop where
  | ok {a b : α} {rest rest' : List Token} {h h'} : R a b → L.Tokens rest rest' →
      Alike L R (.ok a rest h) (.ok b rest' h')
  | error {fault fault' : Fault} {rest rest' : List Token} {h h'} :
      Fault.Alike L.pos fault fault' → L.Tokens rest rest' →
      Alike L R (.error fault rest h) (.error fault' rest' h')

namespace Parsed.Alike

variable {R : α → α → Prop} {S : β → β → Prop} {a b : α} {x : Parsed α m} {y : Parsed α n}

theorem done (h : R a b) (rest : L.Tokens ts ts') : Alike L R (.done a ts) (.done b ts') :=
  .ok h rest

theorem take {t t' : Token} (h : R a b) (rest : L.Tokens ts ts') :
    Alike L R (.take a t ts) (.take b t' ts') :=
  .ok h rest

theorem fail {p q : Option Position} (cause : SyntaxCause) (place : Option.Rel L.pos p q)
    (rest : L.Tokens ts ts') : Alike L R (.fail ⟨cause, p⟩ ts) (.fail ⟨cause, q⟩ ts') :=
  .error ⟨place⟩ rest

theorem mono {m' n' : Nat} (h : Alike L R x y) (le : m ≤ m') (le' : n ≤ n') :
    Alike L R (x.mono le) (y.mono le') := by
  cases h with
  | ok value rest => exact .ok value rest
  | error fault rest => exact .error fault rest

theorem succ (h : Alike L R x y) : Alike L R x.succ y.succ :=
  h.mono _ _

theorem map {f g : α → β} (h : Alike L R x y) (next : ∀ a b, R a b → S (f a) (g b)) :
    Alike L S (x.map f) (y.map g) := by
  cases h with
  | ok value rest => exact .ok (next _ _ value) rest
  | error fault rest => exact .error fault rest

theorem imp {R' : α → α → Prop} (h : Alike L R x y) (weaker : ∀ a b, R a b → R' a b) :
    Alike L R' x y := by
  cases h with
  | ok value rest => exact .ok (weaker _ _ value) rest
  | error fault rest => exact .error fault rest

theorem andThen {f : α → (rest : List Token) → rest.length < m → Parsed β (rest.length + 1)}
    {g : α → (rest : List Token) → rest.length < n → Parsed β (rest.length + 1)}
    (h : Alike L R x y)
    (next : ∀ a b rest rest' shorter shorter', R a b → L.Tokens rest rest' →
      Alike L S (f a rest shorter) (g b rest' shorter')) :
    Alike L S (x.andThen f) (y.andThen g) := by
  cases h with
  | @ok a b rest rest' shorter shorter' value left =>
      exact (next a b rest rest' shorter shorter' value left).mono shorter shorter'
  | error fault left => exact .error fault left

end Parsed.Alike

theorem startsWith_alike (kind : TokenKind) (h : L.Tokens ts ts') :
    startsWith kind ts = startsWith kind ts' := by
  cases h with
  | nil => rfl
  | cons first rest =>
      obtain ⟨place⟩ := first
      rfl

theorem isEmpty_alike (h : L.Tokens ts ts') : ts.isEmpty = ts'.isEmpty := by
  cases h <;> rfl

theorem alike_expect (what : Expectation) (h : L.Tokens ts ts') :
    Parsed.Alike L (Token.Alike L.pos) (expect what ts) (expect what ts') := by
  cases h with
  | nil => exact .fail _ .none .nil
  | cons first rest =>
      obtain ⟨place⟩ := first
      rw [expect, expect]
      split
      · exact .take ⟨place⟩ rest
      · exact .fail _ (.some place) (.cons ⟨place⟩ rest)

/-! ## Expressions -/

section Expressions

variable {nested : Below Parsed Expr m} {nested' : Below Parsed Expr n}
  (alike : ∀ ts ts' h h', L.Tokens ts ts' → Parsed.Alike L L.expr (nested ts h) (nested' ts' h'))
include alike

theorem alike_primary (same : L.Tokens ts ts') (h : ts.length ≤ m) (h' : ts'.length ≤ n) :
    Parsed.Alike L L.expr (primary nested ts h) (primary nested' ts' h') := by
  cases same with
  | nil => exact .fail _ .none .nil
  | cons first rest =>
      obtain ⟨place⟩ := first
      simp only [primary]
      split
      · exact .take (L.expr_iff.mpr (.bool place)) rest
      · exact .take (L.expr_iff.mpr (.bool place)) rest
      · exact .take (L.expr_iff.mpr (.null place)) rest
      · split
        · exact .take (L.expr_iff.mpr (.number place)) rest
        · exact .fail _ (.some place) (.cons ⟨place⟩ rest)
      · exact .take (L.expr_iff.mpr (.string place)) rest
      · refine ((alike_expect _ rest).map fun _ _ name => ?_).succ
        obtain ⟨-⟩ := name
        exact L.expr_iff.mpr (.identifier place)
      · exact .take (L.expr_iff.mpr (.identifier place)) rest
      · exact .take (L.expr_iff.mpr (.identifier place)) rest
      · refine ((alike _ _ _ _ rest).andThen fun e e' rest rest' _ _ expr left => ?_).succ
        exact ((alike_expect _ left).map fun _ _ _ => expr).succ
      · exact .fail _ (.some place) (.cons ⟨place⟩ rest)

theorem alike_arguments : ∀ (ts ts' : List Token) (h : ts.length < m) (h' : ts'.length < n),
    L.Tokens ts ts' →
    Parsed.Alike L (List.Forall₂ L.expr) (arguments nested ts h) (arguments nested' ts' h')
  | ts, ts', h, h', same => by
      rw [arguments, arguments]
      refine (alike _ _ _ _ same).andThen fun e e' rest rest' shorter _ expr left => ?_
      cases left with
      | nil => exact .done (.cons expr .nil) .nil
      | cons first left =>
          obtain ⟨place⟩ := first
          dsimp only
          split
          · exact ((alike_arguments _ _ _ _ left).map fun _ _ exprs => .cons expr exprs).succ.succ
          · exact .done (.cons expr .nil) (.cons ⟨place⟩ left)
termination_by ts => ts.length
decreasing_by exact tail_lt_of_lt shorter

theorem alike_callArguments (same : L.Tokens ts ts') (h : ts.length < m) (h' : ts'.length < n) :
    Parsed.Alike L (fun x y => List.Forall₂ L.expr x.1 y.1 ∧ Token.Alike L.pos x.2 y.2)
      (callArguments nested ts h) (callArguments nested' ts' h') := by
  unfold callArguments
  rw [startsWith_alike .rightParen same]
  split
  · exact (alike_expect _ same).map fun _ _ paren => ⟨.nil, paren⟩
  · refine (alike_arguments alike _ _ _ _ same).andThen fun args args' _ _ _ _ exprs left => ?_
    exact ((alike_expect _ left).map fun _ _ paren => ⟨exprs, paren⟩).succ

theorem alike_postfixes : ∀ (e e' : Expr) (ts ts' : List Token) (h : ts.length ≤ m)
    (h' : ts'.length ≤ n), L.expr e e' → L.Tokens ts ts' →
    Parsed.Alike L L.expr (postfixes nested e ts h) (postfixes nested' e' ts' h')
  | e, e', [], [], h, h', expr, same => by
      rw [postfixes, postfixes]
      exact .done expr .nil
  | e, e', t :: ts, t' :: ts', h, h', expr, same => by
      obtain ⟨first, rest⟩ := List.forall₂_cons.mp same
      obtain ⟨place⟩ := first
      rw [postfixes, postfixes]
      dsimp only
      split
      · refine ((alike_callArguments alike rest _ _).andThen
          fun call call' left left' shorter _ parts same => ?_).succ.succ
        obtain ⟨args, paren⟩ := call
        obtain ⟨args', paren'⟩ := call'
        obtain ⟨exprs, ⟨place⟩⟩ := parts
        exact alike_postfixes _ _ left left' _ _ (L.expr_iff.mpr (.call place expr exprs)) same
      · split
        · refine ((alike_expect _ rest).andThen
            fun name name' left left' shorter _ names same => ?_).succ.succ
          obtain ⟨place⟩ := names
          exact alike_postfixes _ _ left left' _ _ (L.expr_iff.mpr (.member place expr)) same
        · exact .done expr (.cons ⟨place⟩ rest)
termination_by _ _ ts => ts.length
decreasing_by all_goals exact Nat.lt_succ_of_lt shorter

theorem alike_call (same : L.Tokens ts ts') (h : ts.length ≤ m) (h' : ts'.length ≤ n) :
    Parsed.Alike L L.expr (call nested ts h) (call nested' ts' h') :=
  (alike_primary alike same h h').andThen fun e e' rest rest' _ _ expr left =>
    alike_postfixes alike e e' rest rest' _ _ expr left

theorem alike_unary (same : L.Tokens ts ts') (h : ts.length ≤ m) (h' : ts'.length ≤ n) :
    Parsed.Alike L L.expr (unary nested ts h) (unary nested' ts' h') := by
  induction same with
  | nil => exact alike_call alike .nil h h'
  | cons first rest ih =>
      obtain ⟨place⟩ := first
      simp only [unary]
      split
      · exact ((ih _ _).map fun _ _ expr => L.expr_iff.mpr (.unary place expr)).succ
      · exact alike_call alike (.cons ⟨place⟩ rest) h h'

omit alike in
theorem alike_operations {level : Level} {operand : UpTo Parsed Expr m}
    {operand' : UpTo Parsed Expr n}
    (alike : ∀ ts ts' h h', L.Tokens ts ts' →
      Parsed.Alike L L.expr (operand ts h) (operand' ts' h')) :
    ∀ (left left' : Expr) (ts ts' : List Token) (h : ts.length ≤ m) (h' : ts'.length ≤ n),
      L.expr left left' → L.Tokens ts ts' →
      Parsed.Alike L L.expr (operations level operand left ts h)
        (operations level operand' left' ts' h')
  | left, left', [], [], h, h', expr, same => by
      rw [operations, operations]
      exact .done expr .nil
  | left, left', t :: ts, t' :: ts', h, h', expr, same => by
      obtain ⟨first, rest⟩ := List.forall₂_cons.mp same
      obtain ⟨place⟩ := first
      rw [operations, operations]
      dsimp only
      split
      · refine ((alike _ _ _ _ rest).andThen
          fun right right' rest rest' shorter _ operand same => ?_).succ.succ
        exact alike_operations alike _ _ rest rest' _ _
          (L.expr_iff.mpr (.binary place expr operand)) same
      · exact .done expr (.cons ⟨place⟩ rest)
termination_by _ _ ts => ts.length
decreasing_by exact Nat.lt_succ_of_lt shorter

theorem alike_binary (levels : List Level) : ∀ (ts ts' : List Token) (h : ts.length ≤ m)
    (h' : ts'.length ≤ n), L.Tokens ts ts' →
    Parsed.Alike L L.expr (binary nested levels ts h) (binary nested' levels ts' h') := by
  induction levels with
  | nil => exact fun ts ts' h h' same => alike_unary alike same h h'
  | cons level tighter ih =>
      exact fun ts ts' h h' same =>
        (ih ts ts' h h' same).andThen fun left left' rest rest' _ _ expr same =>
          alike_operations ih left left' rest rest' _ _ expr same

theorem alike_assignment (same : L.Tokens ts ts') (h : ts.length ≤ m) (h' : ts'.length ≤ n) :
    Parsed.Alike L L.expr (assignment nested ts h) (assignment nested' ts' h') := by
  refine (alike_binary alike levels ts ts' h h' same).andThen
    fun target target' rest rest' _ _ expr left => ?_
  cases left with
  | nil => exact .done expr .nil
  | cons first left =>
      obtain ⟨place⟩ := first
      dsimp only
      split
      · refine ((alike _ _ _ _ left).andThen fun value value' _ _ _ _ stored left => ?_).succ.succ
        rw [← L.isTarget_of_expr expr]
        split
        · rename_i isTarget
          exact .done (L.expr_iff.mpr (.assign place expr stored (.inr isTarget))) left
        · exact (Parsed.Alike.fail _ (.some place) left).succ
      · exact .done expr (.cons ⟨place⟩ left)

end Expressions

theorem alike_expression : ∀ ts ts' : List Token, L.Tokens ts ts' →
    Parsed.Alike L L.expr (expression ts) (expression ts')
  | ts, ts', same => by
      rw [expression, expression]
      exact alike_assignment (fun ts ts' h _ same => alike_expression ts ts' same) same _ _
termination_by ts => ts.length

/-! ## Clauses of statements -/

theorem alike_expressionStatement (same : L.Tokens ts ts') :
    Parsed.Alike L (fun s s' => L.stmt s s' ∧ s.isLoopStart) (expressionStatement ts)
      (expressionStatement ts') := by
  refine (alike_expression ts ts' same).andThen fun e e' _ _ _ _ expr left => ?_
  refine ((alike_expect _ left).map fun _ _ _ => ?_).succ
  exact ⟨L.stmt_iff.mpr (.expression (L.pos_of_expr expr) expr), rfl⟩

theorem alike_initializer (same : L.Tokens ts ts') :
    Parsed.Alike L (Option.Rel L.expr) (initializer ts) (initializer ts') := by
  cases same with
  | nil => exact .done .none .nil
  | cons first rest =>
      obtain ⟨place⟩ := first
      rw [initializer, initializer]
      dsimp only
      split
      · exact ((alike_expression _ _ rest).map fun _ _ expr => .some expr).succ.succ
      · exact .done .none (.cons ⟨place⟩ rest)

theorem alike_varDeclaration {p q : Position} (place : L.pos p q) (same : L.Tokens ts ts') :
    Parsed.Alike L (fun s s' => L.stmt s s' ∧ s.isLoopStart) (varDeclaration p ts)
      (varDeclaration q ts') := by
  refine (alike_expect _ same).andThen fun name name' _ _ _ _ names left => ?_
  refine (alike_initializer left).andThen fun value value' _ _ _ _ values left => ?_
  refine ((alike_expect _ left).map fun _ _ _ => ?_).succ
  obtain ⟨-⟩ := names
  exact ⟨L.stmt_iff.mpr (.varDecl place values), rfl⟩

theorem alike_property {modifiers : Modifiers}
    (one : (modifiers.isStatic && modifiers.isPublic) = false) (same : L.Tokens ts ts') :
    Parsed.Alike L L.member (property modifiers ts) (property modifiers ts') := by
  refine (alike_expect _ same).andThen fun name name' _ _ _ _ names left => ?_
  refine (alike_initializer left).andThen fun value value' _ _ _ _ values left => ?_
  refine ((alike_expect _ left).map fun _ _ _ => ?_).succ
  obtain ⟨place⟩ := names
  exact L.member_iff.mpr (.property place values (.inr one))

theorem alike_parameterNames : ∀ ts ts' : List Token, L.Tokens ts ts' →
    Parsed.Alike L (· = ·) (parameterNames ts) (parameterNames ts')
  | ts, ts', same => by
      rw [parameterNames, parameterNames]
      refine (alike_expect _ same).andThen fun name name' rest rest' shorter _ names left => ?_
      obtain ⟨-⟩ := names
      cases left with
      | nil => exact .done rfl .nil
      | cons first left =>
          obtain ⟨place⟩ := first
          dsimp only
          split
          · refine ((alike_parameterNames _ _ left).map fun names names' more => ?_).succ.succ
            rw [more]
          · exact .done rfl (.cons ⟨place⟩ left)
termination_by ts => ts.length
decreasing_by exact tail_lt_of_lt shorter

theorem alike_parameters (same : L.Tokens ts ts') :
    Parsed.Alike L (· = ·) (parameters ts) (parameters ts') := by
  unfold parameters
  rw [startsWith_alike .rightParen same]
  split
  · exact .done rfl same
  · exact (alike_parameterNames _ _ same).succ

theorem alike_blockEnd {R : α → α → Prop} {a b : α} (h : R a b) (same : L.Tokens ts ts') :
    Parsed.Alike L R (blockEnd a ts) (blockEnd b ts') := by
  cases same with
  | nil => exact .done h .nil
  | cons first rest => exact (Parsed.Alike.take h rest).succ

theorem alike_functionHead (same : L.Tokens ts ts') :
    Parsed.Alike L (fun x y => Token.Alike L.pos x.1 y.1 ∧ x.2 = y.2) (functionHead ts)
      (functionHead ts') := by
  refine (alike_expect _ same).andThen fun name name' _ _ _ _ names left => ?_
  refine ((alike_expect _ left).andThen fun _ _ _ _ _ _ _ left => ?_).succ
  refine (alike_parameters left).andThen fun params params' _ _ _ _ parameters left => ?_
  refine ((alike_expect _ left).andThen fun _ _ _ _ _ _ _ left => ?_).succ
  exact ((alike_expect _ left).map fun _ _ _ => ⟨names, parameters⟩).succ

theorem alike_classHead (same : L.Tokens ts ts') :
    Parsed.Alike L (Token.Alike L.pos) (classHead ts) (classHead ts') :=
  (alike_expect _ same).andThen fun _ _ _ _ _ _ names left =>
    ((alike_expect _ left).map fun _ _ _ => names).succ

theorem alike_returnEnd (same : L.Tokens ts ts') :
    Parsed.Alike L (· = ·) (returnEnd ts) (returnEnd ts') := by
  cases same with
  | nil => exact .done rfl .nil
  | cons first rest =>
      obtain ⟨place⟩ := first
      rw [returnEnd, returnEnd]
      dsimp only
      split
      · exact (Parsed.Alike.take rfl rest).succ
      · split
        · exact .done rfl (.cons ⟨place⟩ rest)
        · exact (Parsed.Alike.fail _ (.some place) (.cons ⟨place⟩ rest)).succ

theorem alike_returnValue (same : L.Tokens ts ts') :
    Parsed.Alike L (Option.Rel L.expr) (returnValue ts) (returnValue ts') := by
  unfold returnValue
  rw [isEmpty_alike same, startsWith_alike .semicolon same, startsWith_alike .rightBrace same]
  split
  · exact .done .none same
  · exact ((alike_expression _ _ same).map fun _ _ expr => .some expr).succ

theorem alike_returnStatement {p q : Position} (place : L.pos p q) (same : L.Tokens ts ts') :
    Parsed.Alike L L.stmt (returnStatement p ts) (returnStatement q ts') :=
  (alike_returnValue same).andThen fun _ _ _ _ _ _ values left =>
    (alike_returnEnd left).map fun _ _ _ => L.stmt_iff.mpr (.returning place values)

theorem alike_condition (opening closing : Expectation) (same : L.Tokens ts ts') :
    Parsed.Alike L L.expr (condition opening closing ts) (condition opening closing ts') := by
  refine (alike_expect _ same).andThen fun _ _ _ _ _ _ _ left => ?_
  refine ((alike_expression _ _ left).andThen fun _ _ _ _ _ _ expr left => ?_).succ
  exact ((alike_expect _ left).map fun _ _ _ => expr).succ

/-- What a for loop starts with is of a certain shape. -/
theorem alike_loopStart (same : L.Tokens ts ts') :
    Parsed.Alike L (fun s s' => Option.Rel L.stmt s s' ∧ s.all Stmt.isLoopStart) (loopStart ts)
      (loopStart ts') := by
  cases same with
  | nil => exact (alike_expressionStatement .nil).map fun _ _ stmt => ⟨.some stmt.1, stmt.2⟩
  | cons first rest =>
      obtain ⟨place⟩ := first
      rw [loopStart, loopStart]
      dsimp only
      split
      · exact .take ⟨.none, rfl⟩ rest
      · split
        · exact ((alike_varDeclaration place rest).map fun _ _ stmt =>
            ⟨.some stmt.1, stmt.2⟩).succ
        · exact (alike_expressionStatement (.cons ⟨place⟩ rest)).map fun _ _ stmt =>
            ⟨.some stmt.1, stmt.2⟩

theorem alike_loopClause (closing : TokenKind) (same : L.Tokens ts ts') :
    Parsed.Alike L (Option.Rel L.expr) (loopClause closing ts) (loopClause closing ts') := by
  unfold loopClause
  rw [startsWith_alike closing same]
  split
  · exact .done .none same
  · exact ((alike_expression _ _ same).map fun _ _ expr => .some expr).succ

theorem alike_loopHead (same : L.Tokens ts ts') :
    Parsed.Alike L
      (fun x y => (Option.Rel L.stmt x.1 y.1 ∧ x.1.all Stmt.isLoopStart) ∧
        Option.Rel L.expr x.2.1 y.2.1 ∧ Option.Rel L.expr x.2.2 y.2.2)
      (loopHead ts) (loopHead ts') := by
  refine (alike_expect _ same).andThen fun _ _ _ _ _ _ _ left => ?_
  refine ((alike_loopStart left).andThen fun _ _ _ _ _ _ start left => ?_).succ
  refine (alike_loopClause _ left).andThen fun _ _ _ _ _ _ test left => ?_
  refine ((alike_expect _ left).andThen fun _ _ _ _ _ _ _ left => ?_).succ
  refine (alike_loopClause _ left).andThen fun _ _ _ _ _ _ step left => ?_
  exact ((alike_expect _ left).map fun _ _ _ => ⟨start, test, step⟩).succ

/-! ## Answers after faults -/

/-- Like faults that were got over, and like answers. -/
structure Attempt.Alike (L : Likeness) (R : α → α → Prop) (x : Attempt α m) (y : Attempt α n) :
    Prop where
  log : List.Forall₂ (Fault.Alike L.pos) x.log y.log
  result : Parsed.Alike L R x.result y.result

namespace Attempt.Alike

variable {R : α → α → Prop} {S : β → β → Prop} {x : Attempt α m} {y : Attempt α n}

theorem clean {x : Parsed α m} {y : Parsed α n} (h : Parsed.Alike L R x y) :
    Alike L R (.clean x) (.clean y) :=
  ⟨.nil, h⟩

theorem succ (h : Alike L R x y) : Alike L R x.succ y.succ :=
  ⟨h.log, h.result.succ⟩

theorem map {f g : α → β} (h : Alike L R x y) (next : ∀ a b, R a b → S (f a) (g b)) :
    Alike L S (x.map f) (y.map g) :=
  ⟨h.log, h.result.map next⟩

theorem andThen {f : α → (rest : List Token) → rest.length < m → Attempt β (rest.length + 1)}
    {g : α → (rest : List Token) → rest.length < n → Attempt β (rest.length + 1)}
    (h : Alike L R x y)
    (next : ∀ a b rest rest' shorter shorter', R a b → L.Tokens rest rest' →
      Alike L S (f a rest shorter) (g b rest' shorter')) :
    Alike L S (x.andThen f) (y.andThen g) := by
  obtain ⟨log, result⟩ := x
  obtain ⟨log', result'⟩ := y
  obtain ⟨logs, results⟩ := h
  cases results with
  | @ok a b rest rest' shorter shorter' value left =>
      have after := next a b rest rest' shorter shorter' value left
      exact ⟨List.rel_append logs after.log, after.result.mono shorter shorter'⟩
  | error fault left => exact ⟨logs, .error fault left⟩

end Attempt.Alike

theorem alike_synchronize (same : L.Tokens ts ts') :
    L.Tokens (synchronize ts) (synchronize ts') := by
  induction same with
  | nil => exact .nil
  | @cons t t' ts ts' first rest ih =>
      obtain ⟨place⟩ := first
      have next : ts.head?.any startsStatement = ts'.head?.any startsStatement := by
        cases rest with
        | nil => rfl
        | cons first rest =>
            obtain ⟨place⟩ := first
            rfl
      rw [synchronize, synchronize, next]
      dsimp only
      split
      · exact rest
      · exact ih

/-- Like items, like faults that were got over, and the same tokens left. -/
structure Sequence.Alike (L : Likeness) (R : α → α → Prop) (x : Sequence α m) (y : Sequence α n) :
    Prop where
  items : List.Forall₂ R x.items y.items
  log : List.Forall₂ (Fault.Alike L.pos) x.log y.log
  rest : L.Tokens x.rest y.rest

theorem Sequence.Alike.andThen {R : α → α → Prop} {S : β → β → Prop} {x : Sequence α m}
    {y : Sequence α n} {f g : List α → (rest : List Token) → Parsed β (rest.length + 1)}
    (h : Alike L R x y)
    (next : ∀ as bs rest rest', List.Forall₂ R as bs → L.Tokens rest rest' →
      Parsed.Alike L S (f as rest) (g bs rest')) :
    Attempt.Alike L S (x.andThen f) (y.andThen g) :=
  ⟨h.log, (next _ _ _ _ h.items h.rest).mono (Nat.succ_le_succ x.bounded)
    (Nat.succ_le_succ y.bounded)⟩

theorem alike_sequence {R : α → α → Prop} {closes : Token → Bool} {rule : UpTo Attempt α m}
    {rule' : UpTo Attempt α n}
    (alike : ∀ ts ts' h h', L.Tokens ts ts' → Attempt.Alike L R (rule ts h) (rule' ts' h'))
    (closing : ∀ t t', Token.Alike L.pos t t' → closes t = closes t') :
    ∀ (ts ts' : List Token) (h : ts.length ≤ m) (h' : ts'.length ≤ n), L.Tokens ts ts' →
      Sequence.Alike L R (sequence rule closes ts h) (sequence rule' closes ts' h')
  | [], [], h, h', same => by
      rw [sequence, sequence]
      exact ⟨.nil, .nil, .nil⟩
  | t :: ts, t' :: ts', h, h', same => by
      obtain ⟨first, rest⟩ := List.forall₂_cons.mp same
      rw [sequence, sequence, closing t t' first]
      split
      · exact ⟨.nil, .nil, same⟩
      · have both := alike (t :: ts) (t' :: ts') h h' same
        dsimp only
        generalize rule (t :: ts) h = x at both
        generalize rule' (t' :: ts') h' = y at both
        obtain ⟨log, result⟩ := x
        obtain ⟨log', result'⟩ := y
        obtain ⟨logs, results⟩ := both
        cases results with
        | @ok a b left left' shorter shorter' value same =>
            have next := alike_sequence alike closing left left'
              (le_of_lt_of_le shorter h) (le_of_lt_of_le shorter' h') same
            exact ⟨.cons value next.items, List.rel_append logs next.log, next.rest⟩
        | @error fault fault' left left' bounded bounded' faults same =>
            have next := alike_sequence alike closing (synchronize left) (synchronize left')
              (le_of_lt_of_le (synchronize_lt bounded) h)
              (le_of_lt_of_le (synchronize_lt bounded') h') (alike_synchronize same)
            exact ⟨next.items, List.rel_append logs (.cons faults next.log), next.rest⟩
termination_by ts => ts.length
decreasing_by
  · exact shorter
  · exact synchronize_lt bounded

theorem closesBody_alike (t t' : Token) (h : Token.Alike L.pos t t') :
    closesBody t = closesBody t' := by
  obtain ⟨place⟩ := h
  rfl

/-! ## Statements -/

section Rules

variable {rule : UpTo Attempt Stmt m} {rule' : UpTo Attempt Stmt n}
  (alike : ∀ ts ts' h h', L.Tokens ts ts' → Attempt.Alike L L.stmt (rule ts h) (rule' ts' h'))
include alike

theorem alike_blockBody (same : L.Tokens ts ts') (h : ts.length ≤ m) (h' : ts'.length ≤ n) :
    Attempt.Alike L (List.Forall₂ L.stmt) (blockBody rule ts h) (blockBody rule' ts' h') :=
  (alike_sequence alike closesBody_alike ts ts' h h' same).andThen
    fun _ _ _ _ stmts left => alike_blockEnd stmts left

/-- What a function becomes depends on whether it stands in a class. -/
theorem alike_function {R : Stmt → Stmt → Prop} {modifiers : Modifiers}
    (wrap : ∀ {p q name params body body'}, L.pos p q → List.Forall₂ L.stmt body body' →
      R (.function p name params body modifiers) (.function q name params body' modifiers))
    (same : L.Tokens ts ts') (h : ts.length ≤ m) (h' : ts'.length ≤ n) :
    Attempt.Alike L R (function rule modifiers ts h) (function rule' modifiers ts' h') := by
  refine (Attempt.Alike.clean (alike_functionHead same)).andThen
    fun head head' _ _ _ _ heads left => ?_
  obtain ⟨name, params⟩ := head
  obtain ⟨name', params'⟩ := head'
  obtain ⟨⟨place⟩, rfl⟩ := heads
  exact (alike_blockBody alike left _ _).map fun _ _ stmts => wrap place stmts

theorem alike_modified {modifiers : Modifiers}
    (one : (modifiers.isStatic && modifiers.isPublic) = false) (same : L.Tokens ts ts')
    (h : ts.length ≤ m) (h' : ts'.length ≤ n) :
    Attempt.Alike L L.member (modified rule modifiers ts h) (modified rule' modifiers ts' h') := by
  cases same with
  | nil => exact .clean (alike_property one .nil)
  | cons first rest =>
      obtain ⟨place⟩ := first
      rw [modified, modified]
      dsimp only
      split
      · have wrap {p q name params body body'} (place : L.pos p q)
            (stmts : List.Forall₂ L.stmt body body') :
            L.member (.function p name params body modifiers)
              (.function q name params body' modifiers) :=
          L.member_iff.mpr (.function place stmts (.inr one))
        exact (alike_function alike wrap rest _ _).succ
      · exact .clean (alike_property one (.cons ⟨place⟩ rest))

theorem alike_classMember (ts ts' : List Token) (h : ts.length ≤ m) (h' : ts'.length ≤ n)
    (same : L.Tokens ts ts') :
    Attempt.Alike L L.member (classMember rule ts h) (classMember rule' ts' h') := by
  cases same with
  | nil => exact alike_modified alike rfl .nil h h'
  | cons first rest =>
      obtain ⟨place⟩ := first
      simp only [classMember]
      split
      · rename_i modifiers found
        have one : (modifiers.isStatic && modifiers.isPublic) = false := by
          unfold modifiers? at found
          split at found <;> cases found <;> rfl
        exact (alike_modified alike one rest _ _).succ
      · exact alike_modified alike rfl (.cons ⟨place⟩ rest) _ _

theorem alike_classDeclaration {isStatic : Bool} {p q : Position} (place : L.pos p q)
    (same : L.Tokens ts ts') (h : ts.length ≤ m) (h' : ts'.length ≤ n) :
    Attempt.Alike L L.stmt (classDeclaration rule isStatic p ts h)
      (classDeclaration rule' isStatic q ts' h') := by
  refine (Attempt.Alike.clean (alike_classHead same)).andThen
    fun name name' rest rest' shorter shorter' names left => ?_
  obtain ⟨-⟩ := names
  refine (alike_sequence (alike_classMember alike) closesBody_alike rest rest' _ _ left).andThen
    fun members members' _ _ inside left => ?_
  exact ((alike_expect _ left).map fun _ _ _ => L.stmt_iff.mpr (.classDecl place inside)).succ

end Rules

section Nested

variable {nested : Below Attempt Stmt m} {nested' : Below Attempt Stmt n}
  (alike : ∀ ts ts' h h', L.Tokens ts ts' → Attempt.Alike L L.stmt (nested ts h) (nested' ts' h'))
include alike

theorem alike_alternative (same : L.Tokens ts ts') (h : ts.length ≤ m) (h' : ts'.length ≤ n) :
    Attempt.Alike L (Option.Rel L.stmt) (alternative nested ts h) (alternative nested' ts' h') := by
  cases same with
  | nil => exact .clean (.done .none .nil)
  | cons first rest =>
      obtain ⟨place⟩ := first
      rw [alternative, alternative]
      dsimp only
      split
      · exact ((alike _ _ _ _ rest).map fun _ _ stmt => .some stmt).succ.succ
      · exact .clean (.done .none (.cons ⟨place⟩ rest))

theorem alike_branch {p q : Position} (place : L.pos p q) (same : L.Tokens ts ts')
    (h : ts.length ≤ m) (h' : ts'.length ≤ n) :
    Attempt.Alike L L.stmt (branch nested p ts h) (branch nested' q ts' h') := by
  refine (Attempt.Alike.clean (alike_condition _ _ same)).andThen fun _ _ _ _ _ _ test left => ?_
  refine ((alike _ _ _ _ left).andThen fun _ _ _ _ _ _ consequent left => ?_).succ
  exact (alike_alternative alike left _ _).map fun _ _ other =>
    L.stmt_iff.mpr (.branch place test consequent other)

theorem alike_whileLoop {p q : Position} (place : L.pos p q) (same : L.Tokens ts ts')
    (h : ts.length ≤ m) (h' : ts'.length ≤ n) :
    Attempt.Alike L L.stmt (whileLoop nested p ts h) (whileLoop nested' q ts' h') := by
  refine (Attempt.Alike.clean (alike_condition _ _ same)).andThen fun _ _ _ _ _ _ test left => ?_
  exact ((alike _ _ _ _ left).map fun _ _ body => L.stmt_iff.mpr (.whileLoop place test body)).succ

theorem alike_forLoop {p q : Position} (place : L.pos p q) (same : L.Tokens ts ts')
    (h : ts.length ≤ m) (h' : ts'.length ≤ n) :
    Attempt.Alike L L.stmt (forLoop nested p ts h) (forLoop nested' q ts' h') := by
  refine (Attempt.Alike.clean (alike_loopHead same)).andThen
    fun head head' _ _ _ _ heads left => ?_
  obtain ⟨start, test, step⟩ := head
  obtain ⟨start', test', step'⟩ := head'
  obtain ⟨⟨starts, shape⟩, tests, steps⟩ := heads
  exact ((alike _ _ _ _ left).map fun _ _ body =>
    L.stmt_iff.mpr (.forLoop place starts tests steps body (.inr shape))).succ

theorem alike_statementFrom {t t' : Token} (first : Token.Alike L.pos t t')
    (same : L.Tokens ts ts') (h : ts.length < m) (h' : ts'.length < n) :
    Attempt.Alike L L.stmt (statementFrom nested t ts h) (statementFrom nested' t' ts' h') := by
  obtain ⟨place⟩ := first
  unfold statementFrom
  dsimp only
  split
  · exact .clean ((alike_varDeclaration place same).imp fun _ _ stmt => stmt.1).succ
  · refine ((Attempt.Alike.clean (alike_expect _ same)).andThen fun _ _ _ _ _ _ _ left => ?_).succ
    exact (alike_classDeclaration (fun ts ts' _ _ => alike ts ts' _ _) place left _ _).succ
  · exact (alike_classDeclaration (fun ts ts' _ _ => alike ts ts' _ _) place same _ _).succ
  · have wrap {p q name params body body'} (place : L.pos p q)
        (stmts : List.Forall₂ L.stmt body body') :
        L.stmt (.function p name params body {}) (.function q name params body' {}) :=
      L.stmt_iff.mpr (.function place stmts (.inr rfl))
    exact (alike_function (fun ts ts' _ _ => alike ts ts' _ _) wrap same _ _).succ
  · exact .clean (alike_returnStatement place same)
  · exact (alike_branch alike place same _ _).succ
  · exact (alike_whileLoop alike place same _ _).succ
  · exact (alike_forLoop alike place same _ _).succ
  · exact (alike_blockBody (fun ts ts' _ _ => alike ts ts' _ _) same _ _).map fun _ _ stmts =>
      L.stmt_iff.mpr (.block place stmts)
  · exact .clean ((alike_expressionStatement (.cons ⟨place⟩ same)).imp fun _ _ stmt => stmt.1)

end Nested

theorem alike_statement : ∀ ts ts' : List Token, L.Tokens ts ts' →
    Attempt.Alike L L.stmt (statement ts) (statement ts')
  | [], [], _ => by
      rw [statement]
      exact .clean ((alike_expressionStatement .nil).imp fun _ _ stmt => stmt.1)
  | t :: ts, t' :: ts', same => by
      obtain ⟨first, rest⟩ := List.forall₂_cons.mp same
      rw [statement, statement]
      exact alike_statementFrom (fun ts ts' h _ same => alike_statement ts ts' same) first rest _ _
termination_by ts => ts.length

end Parse

namespace Script

variable {L : Likeness} {ts ts' : List Token}

/-- The place that is reported for the end of the tokens. -/
def last (ts : List Token) : Position :=
  match ts.find? fun t => decide (t.kind = .endOfInput) with
  | some t => t.pos
  | none => ⟨0, 0⟩

theorem alike_body (same : L.Tokens ts ts') : L.Tokens (body ts) (body ts') := by
  unfold body
  induction same with
  | nil => exact .nil
  | cons first rest ih =>
      obtain ⟨place⟩ := first
      simp only [List.takeWhile_cons]
      split
      · exact .cons ⟨place⟩ ih
      · exact .nil

theorem alike_last (same : L.Tokens ts ts')
    (ends : L.pos ⟨0, 0⟩ ⟨0, 0⟩ ∨ ∃ t ∈ ts, t.kind = .endOfInput) :
    L.pos (last ts) (last ts') := by
  unfold last
  induction same with
  | nil => exact ends.resolve_right (by simp)
  | cons first rest ih =>
      obtain @⟨kind, lexeme, p, q, place⟩ := first
      rw [List.find?_cons, List.find?_cons]
      by_cases mark : kind = .endOfInput
      · simp only [mark]
        exact place
      · simp only [mark]
        refine ih (ends.imp_right ?_)
        rintro ⟨t, mem, kind⟩
        rcases List.mem_cons.mp mem with rfl | mem
        · exact absurd kind mark
        · exact ⟨t, mem, kind⟩

theorem alike_topLevel (same : L.Tokens ts ts') :
    Parse.Sequence.Alike L L.stmt (Parse.topLevel ts) (Parse.topLevel ts') :=
  Parse.alike_sequence (fun ts ts' _ _ => Parse.alike_statement ts ts') (fun _ _ _ => rfl) ts ts'
    _ _ same

/-- Like tokens have like programs, whether or not statements are rejected. -/
theorem alike_program (same : L.Tokens ts ts') :
    List.Forall₂ L.stmt (ofTokens ts).program (ofTokens ts').program :=
  (alike_topLevel (alike_body same)).items

/-- Like tokens are rejected for the same causes at related places. -/
theorem alike_diagnostics (same : L.Tokens ts ts')
    (ends : L.pos ⟨0, 0⟩ ⟨0, 0⟩ ∨ ∃ t ∈ ts, t.kind = .endOfInput) :
    List.Forall₂ (Diagnostic.Alike L.pos) (ofTokens ts).diagnostics (ofTokens ts').diagnostics := by
  have faults := (alike_topLevel (alike_body same)).log
  have located : List.Forall₂ (Diagnostic.Alike L.pos)
      ((Parse.topLevel (body ts)).log.map (Fault.locate (last ts)))
      ((Parse.topLevel (body ts')).log.map (Fault.locate (last ts'))) := by
    rw [List.forall₂_map_left_iff, List.forall₂_map_right_iff]
    exact faults.imp fun _ _ fault => fault.locate (alike_last same ends)
  exact located

end Script

end Scriptlet
