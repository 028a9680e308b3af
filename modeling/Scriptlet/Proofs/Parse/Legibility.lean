import Scriptlet.Proofs.Token.Legibility

/-! # Legible trees from legible tokens

Whatever the parser reads from legible tokens is legible, and so are the tokens that it leaves, also
where it gets over faults. What a rule reads may be open at its end only if no token is left. -/

namespace Scriptlet

namespace Parse

open Token (LegibleEach)

variable {α β : Type} {n : Nat} {t : Token} {ts : List Token}

/-! ## Answers -/

namespace Parsed

/-- The tokens left are legible, and the value is what `good` asks for, given whether no token is
left. -/
def Yields (good : α → Bool → Prop) : Parsed α n → Prop
  | .ok value rest _ => LegibleEach rest ∧ good value rest.isEmpty
  | .error _ rest _ => LegibleEach rest

variable {good : α → Bool → Prop} {good' : β → Bool → Prop} {x : Parsed α n}

theorem Yields.mono {m : Nat} (h : x.Yields good) (le : n ≤ m) : (x.mono le).Yields good := by
  cases x <;> exact h

theorem Yields.succ (h : x.Yields good) : x.succ.Yields good :=
  h.mono _

theorem Yields.imp {good' : α → Bool → Prop} (h : x.Yields good)
    (weaker : ∀ a last, good a last → good' a last) : x.Yields good' := by
  cases x with
  | ok a rest _ => exact ⟨h.1, weaker a _ h.2⟩
  | error fault rest _ => exact h

theorem Yields.closed {x : Parsed Stmt n} (h : x.Yields fun s _ => s.Legible false) :
    x.Yields Stmt.Legible :=
  h.imp fun _ last legible => legible.mono last

theorem Yields.map {f : α → β} (h : x.Yields good)
    (next : ∀ a last, good a last → good' (f a) last) : (x.map f).Yields good' := by
  cases x with
  | ok a rest _ => exact ⟨h.1, next a _ h.2⟩
  | error fault rest _ => exact h

theorem Yields.andThen {f : α → (rest : List Token) → rest.length < n → Parsed β (rest.length + 1)}
    (h : x.Yields good)
    (next : ∀ a rest shorter, LegibleEach rest → good a rest.isEmpty →
      (f a rest shorter).Yields good') :
    (x.andThen f).Yields good' := by
  cases x with
  | ok a rest shorter => exact (next a rest shorter h.1 h.2).mono shorter
  | error fault rest bounded => exact h

theorem yields_done {value : α} {rest : List Token} (legible : LegibleEach rest)
    (h : good value rest.isEmpty) : (done value rest).Yields good :=
  ⟨legible, h⟩

theorem yields_take {value : α} (legible : LegibleEach ts) (h : good value ts.isEmpty) :
    (take value t ts).Yields good :=
  ⟨legible, h⟩

theorem yields_fail {fault : Fault} (legible : LegibleEach ts) :
    (fail fault ts : Parsed α _).Yields good :=
  legible

end Parsed

open Parsed

/-- A token that is expected was there, and a name that is expected is one. -/
theorem yields_expect (what : Expectation) (legible : LegibleEach ts) :
    (expect what ts).Yields fun t _ =>
      ts.isEmpty = false ∧ (what.kind = .identifier → IsName t.lexeme) := by
  cases ts with
  | nil => exact yields_fail legible
  | cons t ts =>
      rw [expect]
      split
      · rename_i kind
        refine yields_take legible.2 ⟨rfl, fun name => ?_⟩
        have first := legible.1
        rw [Token.Legible, kind, name] at first
        exact first
      · exact yields_fail legible

/-- In front of an expected token, nothing is open. -/
theorem yields_map_expect {what : Expectation} {f : Token → α} {good : α → Bool → Prop}
    {before : Bool → Prop} (legible : LegibleEach ts) (h : before ts.isEmpty)
    (next : ∀ t last, before false → good (f t) last) : ((expect what ts).map f).Yields good := by
  refine (yields_expect what legible).map fun t last found => ?_
  rw [found.1] at h
  exact next t last h

/-! ## Expressions -/

section Expressions

variable {nested : Below Parsed Expr n}
  (yields : ∀ ts h, LegibleEach ts → (nested ts h).Yields Expr.Legible)
include yields

theorem yields_primary (h : ts.length ≤ n) (legible : LegibleEach ts) :
    (primary nested ts h).Yields Expr.Legible := by
  cases ts with
  | nil => exact yields_fail legible
  | cons t ts =>
      obtain ⟨first, rest⟩ := legible
      simp only [primary]
      split
      · exact yields_take rest trivial
      · exact yields_take rest trivial
      · exact yields_take rest trivial
      · rename_i kind
        split
        · rename_i x read
          rw [Token.Legible, kind] at first
          exact yields_take rest (first x read)
        · exact yields_fail ⟨first, rest⟩
      · rename_i kind
        rw [Token.Legible, kind] at first
        exact yields_take rest first
      · exact ((yields_expect _ rest).map fun name _ found => found.2 rfl).succ
      · exact yields_take rest (by decide : IsName "this")
      · rename_i kind
        rw [Token.Legible, kind] at first
        exact yields_take rest first
      · refine Yields.succ ((yields ts _ rest).andThen fun e rest _ legible inner => Yields.succ ?_)
        exact yields_map_expect legible inner fun _ last closed => closed.mono last
      · exact yields_fail ⟨first, rest⟩

theorem yields_arguments (ts : List Token) (h : ts.length < n) (legible : LegibleEach ts) :
    (arguments nested ts h).Yields fun args last => last = false → Expr.LegibleEach args := by
  rw [arguments]
  refine (yields ts h legible).andThen fun e rest shorter legible first => ?_
  cases rest with
  | nil => exact yields_done trivial nofun
  | cons t rest =>
      dsimp only
      split
      · refine Yields.succ (Yields.succ ?_)
        exact (yields_arguments rest _ legible.2).map fun es _ more going => ⟨first, more going⟩
      · exact yields_done legible fun _ => ⟨first, trivial⟩
termination_by ts.length
decreasing_by exact tail_lt_of_lt shorter

theorem yields_callArguments (h : ts.length < n) (legible : LegibleEach ts) :
    (callArguments nested ts h).Yields fun call _ => Expr.LegibleEach call.1 := by
  unfold callArguments
  split
  · exact (yields_expect _ legible).map fun _ _ _ => trivial
  · refine (yields_arguments yields ts h legible).andThen fun args rest _ legible inner => ?_
    exact ((yields_expect _ legible).map fun _ _ found => inner found.1).succ

theorem yields_postfixes : ∀ (e : Expr) (ts : List Token) (h : ts.length ≤ n),
    e.Legible ts.isEmpty → LegibleEach ts → (postfixes nested e ts h).Yields Expr.Legible
  | e, [], _, first, _ => by
      rw [postfixes]
      exact yields_done trivial first
  | e, t :: ts, h, first, legible => by
      rw [postfixes]
      split
      · refine Yields.succ (Yields.succ ?_)
        refine (yields_callArguments yields _ legible.2).andThen
          fun call rest shorter legible args => ?_
        exact yields_postfixes _ rest _ ⟨first, args⟩ legible
      · split
        · refine Yields.succ (Yields.succ ?_)
          refine (yields_expect _ legible.2).andThen fun name rest shorter legible found => ?_
          exact yields_postfixes _ rest _ ⟨first, found.2 rfl⟩ legible
        · exact yields_done legible first
termination_by _ ts => ts.length
decreasing_by all_goals exact Nat.lt_succ_of_lt shorter

theorem yields_call (h : ts.length ≤ n) (legible : LegibleEach ts) :
    (call nested ts h).Yields Expr.Legible :=
  (yields_primary yields h legible).andThen fun e rest _ legible first =>
    yields_postfixes yields e rest _ first legible

theorem yields_unary (h : ts.length ≤ n) (legible : LegibleEach ts) :
    (unary nested ts h).Yields Expr.Legible := by
  induction ts with
  | nil => exact yields_call yields h legible
  | cons t ts ih =>
      rw [unary]
      split
      · refine Yields.succ ((ih _ legible.2).map fun e _ operand => ?_)
        exact operand
      · exact yields_call yields h legible

omit yields in
theorem yields_operations {level : Level} {operand : UpTo Parsed Expr n}
    (operands : ∀ ts h, LegibleEach ts → (operand ts h).Yields Expr.Legible) :
    ∀ (left : Expr) (ts : List Token) (h : ts.length ≤ n), left.Legible ts.isEmpty →
      LegibleEach ts → (operations level operand left ts h).Yields Expr.Legible
  | left, [], _, first, _ => by
      rw [operations]
      exact yields_done trivial first
  | left, t :: ts, h, first, legible => by
      rw [operations]
      split
      · refine Yields.succ (Yields.succ ?_)
        refine (operands ts _ legible.2).andThen fun right rest shorter legible second => ?_
        exact yields_operations operands _ rest _ ⟨first, second⟩ legible
      · exact yields_done legible first
termination_by _ ts => ts.length
decreasing_by exact Nat.lt_succ_of_lt shorter

theorem yields_binary (levels : List Level) (ts : List Token) (h : ts.length ≤ n)
    (legible : LegibleEach ts) : (binary nested levels ts h).Yields Expr.Legible := by
  induction levels generalizing ts with
  | nil => exact yields_unary yields h legible
  | cons level tighter ih =>
      refine (ih ts h legible).andThen fun left rest _ legible first => ?_
      exact yields_operations ih left rest _ first legible

theorem yields_assignment (h : ts.length ≤ n) (legible : LegibleEach ts) :
    (assignment nested ts h).Yields Expr.Legible := by
  refine (yields_binary yields levels ts h legible).andThen
    fun target rest shorter legible first => ?_
  cases rest with
  | nil => exact yields_done trivial first
  | cons t rest =>
      dsimp only
      split
      · refine Yields.succ (Yields.succ ?_)
        refine (yields rest _ legible.2).andThen fun value rest _ legible second => ?_
        split
        · exact yields_done legible ⟨first, second⟩
        · exact (yields_fail legible).succ
      · exact yields_done legible first

end Expressions

theorem yields_expression (ts : List Token) (legible : LegibleEach ts) :
    (expression ts).Yields Expr.Legible := by
  rw [expression]
  exact yields_assignment (fun ts _ => yields_expression ts) _ legible
termination_by ts.length

/-! ## Parts of statements -/

theorem yields_expressionStatement (ts : List Token) (legible : LegibleEach ts) :
    (expressionStatement ts).Yields fun s _ => s.Legible false := by
  refine (yields_expression ts legible).andThen fun e rest _ legible inner => Yields.succ ?_
  exact yields_map_expect legible inner fun _ _ closed => closed

theorem yields_initializer (ts : List Token) (legible : LegibleEach ts) :
    (initializer ts).Yields Expr.LegibleOption := by
  cases ts with
  | nil => exact yields_done trivial nofun
  | cons t ts =>
      rw [initializer]
      split
      · refine Yields.succ (Yields.succ ((yields_expression ts legible.2).map fun e _ inner => ?_))
        rintro a ⟨⟩
        exact inner
      · exact yields_done legible nofun

theorem yields_varDeclaration (pos : Position) (ts : List Token) (legible : LegibleEach ts) :
    (varDeclaration pos ts).Yields fun s _ => s.Legible false := by
  refine (yields_expect _ legible).andThen fun name rest _ legible found => ?_
  refine (yields_initializer rest legible).andThen fun value rest _ legible inner => Yields.succ ?_
  exact yields_map_expect legible inner fun _ _ closed => ⟨found.2 rfl, closed⟩

theorem yields_property (modifiers : Modifiers) (ts : List Token) (legible : LegibleEach ts) :
    (property modifiers ts).Yields fun s _ => s.Legible false := by
  refine (yields_expect _ legible).andThen fun name rest _ legible found => ?_
  refine (yields_initializer rest legible).andThen fun value rest _ legible inner => Yields.succ ?_
  exact yields_map_expect legible inner fun _ _ closed => ⟨found.2 rfl, closed⟩

theorem yields_parameterNames (ts : List Token) (legible : LegibleEach ts) :
    (parameterNames ts).Yields fun names _ => ∀ name ∈ names, IsName name := by
  rw [parameterNames]
  refine (yields_expect _ legible).andThen fun name rest shorter legible found => ?_
  have isName : IsName name.lexeme := found.2 rfl
  cases rest with
  | nil => exact yields_done trivial (List.forall_mem_singleton.mpr isName)
  | cons t rest =>
      dsimp only
      split
      · refine Yields.succ (Yields.succ ?_)
        exact (yields_parameterNames rest legible.2).map fun names _ more =>
          List.forall_mem_cons.mpr ⟨isName, more⟩
      · exact yields_done legible (List.forall_mem_singleton.mpr isName)
termination_by ts.length
decreasing_by exact tail_lt_of_lt shorter

theorem yields_parameters (ts : List Token) (legible : LegibleEach ts) :
    (parameters ts).Yields fun names _ => ∀ name ∈ names, IsName name := by
  unfold parameters
  split
  · exact yields_done legible nofun
  · exact (yields_parameterNames ts legible).succ

theorem yields_functionHead (ts : List Token) (legible : LegibleEach ts) :
    (functionHead ts).Yields fun head _ =>
      IsName head.1.lexeme ∧ ∀ name ∈ head.2, IsName name := by
  refine (yields_expect _ legible).andThen fun name rest _ legible found => Yields.succ ?_
  refine (yields_expect _ legible).andThen fun _ rest _ legible _ => ?_
  refine (yields_parameters rest legible).andThen fun params rest _ legible names => Yields.succ ?_
  refine (yields_expect _ legible).andThen fun _ rest _ legible _ => Yields.succ ?_
  exact (yields_expect _ legible).map fun _ _ _ => ⟨found.2 rfl, names⟩

theorem yields_classHead (ts : List Token) (legible : LegibleEach ts) :
    (classHead ts).Yields fun name _ => IsName name.lexeme := by
  refine (yields_expect _ legible).andThen fun name rest _ legible found => Yields.succ ?_
  exact (yields_expect _ legible).map fun _ _ _ => found.2 rfl

theorem yields_returnValue (ts : List Token) (legible : LegibleEach ts) :
    (returnValue ts).Yields Expr.LegibleOption := by
  unfold returnValue
  split
  · exact yields_done legible nofun
  · refine Yields.succ ((yields_expression ts legible).map fun e _ inner => ?_)
    rintro a ⟨⟩
    exact inner

/-- Behind a return statement comes something unless the tokens end there. -/
theorem yields_returnEnd {before : Bool → Prop} (mono : before false → ∀ last, before last)
    (ts : List Token) (legible : LegibleEach ts) (h : before ts.isEmpty) :
    (returnEnd ts).Yields fun _ last => before last := by
  cases ts with
  | nil => exact yields_done trivial h
  | cons t ts =>
      rw [returnEnd]
      split
      · exact (yields_take legible.2 (mono h _)).succ
      · split
        · exact yields_done legible h
        · exact (yields_fail legible).succ

theorem yields_returnStatement (pos : Position) (ts : List Token) (legible : LegibleEach ts) :
    (returnStatement pos ts).Yields Stmt.Legible := by
  refine (yields_returnValue ts legible).andThen fun value rest _ legible inner => ?_
  exact (yields_returnEnd Expr.LegibleOption.mono rest legible inner).map fun _ _ still => still

theorem yields_condition (opening closing : Expectation) (ts : List Token)
    (legible : LegibleEach ts) :
    (condition opening closing ts).Yields fun test _ => test.Legible false := by
  refine (yields_expect _ legible).andThen fun _ rest _ legible _ => Yields.succ ?_
  refine (yields_expression rest legible).andThen fun e rest _ legible inner => Yields.succ ?_
  exact yields_map_expect legible inner fun _ _ closed => closed

theorem yields_loopStart (ts : List Token) (legible : LegibleEach ts) :
    (loopStart ts).Yields fun start _ => Stmt.LegibleOption start false := by
  cases ts with
  | nil => exact (yields_expressionStatement [] legible).map fun _ _ inner => inner
  | cons t ts =>
      rw [loopStart]
      split
      · exact yields_take legible.2 trivial
      · split
        · exact Yields.succ
            ((yields_varDeclaration t.pos ts legible.2).map fun _ _ inner => inner)
        · exact (yields_expressionStatement (t :: ts) legible).map fun _ _ inner => inner

theorem yields_loopClause (closing : TokenKind) (ts : List Token) (legible : LegibleEach ts) :
    (loopClause closing ts).Yields Expr.LegibleOption := by
  unfold loopClause
  split
  · exact yields_done legible nofun
  · refine Yields.succ ((yields_expression ts legible).map fun e _ inner => ?_)
    rintro a ⟨⟩
    exact inner

theorem yields_loopHead (ts : List Token) (legible : LegibleEach ts) :
    (loopHead ts).Yields fun (start, test, step) _ =>
      Stmt.LegibleOption start false ∧ Expr.LegibleOption test false ∧
        Expr.LegibleOption step false := by
  refine (yields_expect _ legible).andThen fun _ rest _ legible _ => Yields.succ ?_
  refine (yields_loopStart rest legible).andThen fun start rest _ legible first => ?_
  refine (yields_loopClause _ rest legible).andThen fun test rest _ legible second =>
    Yields.succ ?_
  refine (yields_expect _ legible).andThen fun _ after _ legible found => ?_
  rw [found.1] at second
  refine (yields_loopClause _ after legible).andThen fun step rest _ legible third => Yields.succ ?_
  exact yields_map_expect legible third fun _ _ closed => ⟨first, second, closed⟩

/-! ## Rules that get over faults -/

/-- What is passed over was legible, and so is what is left. -/
theorem legible_synchronize (legible : LegibleEach ts) : LegibleEach (synchronize ts) := by
  induction ts with
  | nil => exact legible
  | cons t ts ih =>
      rw [synchronize]
      split
      · exact legible.2
      · exact ih legible.2

namespace Attempt

@[inherit_doc Parsed.Yields]
def Yields (good : α → Bool → Prop) (a : Attempt α n) : Prop :=
  a.result.Yields good

variable {good : α → Bool → Prop} {good' : β → Bool → Prop} {a : Attempt α n}

theorem Yields.clean {x : Parsed α n} (h : x.Yields good) : (clean x).Yields good :=
  h

theorem Yields.succ (h : a.Yields good) : a.succ.Yields good :=
  Parsed.Yields.succ h

theorem Yields.map {f : α → β} (h : a.Yields good)
    (next : ∀ v last, good v last → good' (f v) last) : (a.map f).Yields good' :=
  Parsed.Yields.map h next

theorem Yields.andThen {f : α → (rest : List Token) → rest.length < n → Attempt β (rest.length + 1)}
    (h : a.Yields good)
    (next : ∀ v rest shorter, LegibleEach rest → good v rest.isEmpty →
      (f v rest shorter).Yields good') :
    (a.andThen f).Yields good' := by
  obtain ⟨log, result⟩ := a
  cases result with
  | ok v rest shorter => exact (next v rest shorter h.1 h.2).mono shorter
  | error fault rest bounded => exact h

end Attempt

/-- The items are legible, and the last of them may be open if no token is left. -/
def Sequence.Yields (s : Sequence Stmt n) : Prop :=
  LegibleEach s.rest ∧ Stmt.LegibleEach s.items s.rest.isEmpty

theorem Sequence.yields_andThen {good : α → Bool → Prop} {s : Sequence Stmt n}
    {rule : List Stmt → (rest : List Token) → Parsed α (rest.length + 1)}
    (h : (rule s.items s.rest).Yields good) : (s.andThen rule).Yields good :=
  Parsed.Yields.mono h (Nat.succ_le_succ s.bounded)

section Rules

variable {rule : UpTo Attempt Stmt n}
  (yields : ∀ ts h, LegibleEach ts → (rule ts h).Yields Stmt.Legible)
include yields

theorem yields_sequence (closes : Token → Bool) (ts : List Token) (h : ts.length ≤ n)
    (legible : LegibleEach ts) : (sequence rule closes ts h).Yields := by
  fun_induction sequence rule closes ts h with
  | case1 => exact ⟨trivial, trivial⟩
  | case2 t ts h closing => exact ⟨legible, trivial⟩
  | case3 t ts h going first item rest shorter result next _ ih =>
      have read : first.Yields Stmt.Legible := yields (t :: ts) h legible
      rw [Attempt.Yields, result] at read
      obtain ⟨left, items⟩ := ih read.1
      refine ⟨left, ?_, items⟩
      cases rest with
      | nil => simpa [next, sequence] using read.2
      | cons => exact read.2.mono _
  | case4 t ts h going first fault rest bounded result next _ ih =>
      have read : first.Yields Stmt.Legible := yields (t :: ts) h legible
      rw [Attempt.Yields, result] at read
      exact ih (legible_synchronize read)

theorem yields_blockBody (ts : List Token) (h : ts.length ≤ n) (legible : LegibleEach ts) :
    (blockBody rule ts h).Yields Stmt.LegibleEach := by
  have read := yields_sequence yields closesBody ts h legible
  refine Sequence.yields_andThen ?_
  obtain ⟨legible, items⟩ := read
  cases left : (sequence rule closesBody ts h).rest with
  | nil =>
      rw [left] at items
      exact yields_done trivial items
  | cons t rest =>
      rw [left] at legible items
      exact (yields_take legible.2 (Stmt.Legible.monoEach items _)).succ

theorem yields_function (modifiers : Modifiers) (ts : List Token) (h : ts.length ≤ n)
    (legible : LegibleEach ts) : (function rule modifiers ts h).Yields Stmt.Legible := by
  refine (Attempt.Yields.clean (yields_functionHead ts legible)).andThen
    fun head rest shorter legible names => ?_
  exact (yields_blockBody yields rest _ legible).map fun body _ inner =>
    ⟨names.1, names.2, inner⟩

theorem yields_modified (modifiers : Modifiers) (ts : List Token) (h : ts.length ≤ n)
    (legible : LegibleEach ts) : (modified rule modifiers ts h).Yields Stmt.Legible := by
  cases ts with
  | nil => exact .clean (yields_property modifiers [] legible).closed
  | cons t ts =>
      rw [modified]
      split
      · exact (yields_function yields modifiers ts _ legible.2).succ
      · exact .clean (yields_property modifiers (t :: ts) legible).closed

theorem yields_classMember (ts : List Token) (h : ts.length ≤ n) (legible : LegibleEach ts) :
    (classMember rule ts h).Yields Stmt.Legible := by
  cases ts with
  | nil => exact yields_modified yields {} [] h legible
  | cons t ts =>
      simp only [classMember]
      split
      · exact (yields_modified yields _ ts _ legible.2).succ
      · exact yields_modified yields {} (t :: ts) h legible

/-- The members are read up to a brace, so that none of them is open. -/
theorem yields_classDeclaration (isStatic : Bool) (pos : Position) (ts : List Token)
    (h : ts.length ≤ n) (legible : LegibleEach ts) :
    (classDeclaration rule isStatic pos ts h).Yields Stmt.Legible := by
  refine (Attempt.Yields.clean (yields_classHead ts legible)).andThen
    fun name rest shorter legible isName => ?_
  have read := yields_sequence (yields_classMember yields) closesBody rest
    (le_of_lt_of_le shorter h) legible
  refine Sequence.yields_andThen (Yields.succ ?_)
  exact yields_map_expect read.1 read.2 fun _ _ closed => ⟨isName, closed⟩

end Rules

section Nested

variable {nested : Below Attempt Stmt n}
  (yields : ∀ ts h, LegibleEach ts → (nested ts h).Yields Stmt.Legible)
include yields

theorem yields_alternative {consequent : Stmt} (ts : List Token) (h : ts.length ≤ n)
    (legible : LegibleEach ts) (first : consequent.Legible ts.isEmpty) :
    (alternative nested ts h).Yields fun other last =>
      consequent.Legible (last && other.isNone) ∧ Stmt.LegibleOption other last := by
  cases ts with
  | nil => exact ⟨trivial, first, trivial⟩
  | cons t ts =>
      rw [alternative]
      split
      · refine Attempt.Yields.succ (Attempt.Yields.succ ((yields ts _ legible.2).map ?_))
        exact fun other last second => ⟨first.mono _, second⟩
      · exact ⟨legible, first, trivial⟩

theorem yields_branch (pos : Position) (ts : List Token) (h : ts.length ≤ n)
    (legible : LegibleEach ts) : (branch nested pos ts h).Yields Stmt.Legible := by
  refine (Attempt.Yields.clean (yields_condition _ _ ts legible)).andThen
    fun test rest _ legible inner => Attempt.Yields.succ ?_
  refine (yields rest _ legible).andThen fun consequent rest _ legible first => ?_
  exact (yields_alternative yields rest _ legible first).map fun other _ both => ⟨inner, both⟩

theorem yields_whileLoop (pos : Position) (ts : List Token) (h : ts.length ≤ n)
    (legible : LegibleEach ts) : (whileLoop nested pos ts h).Yields Stmt.Legible := by
  refine (Attempt.Yields.clean (yields_condition _ _ ts legible)).andThen
    fun test rest _ legible inner => Attempt.Yields.succ ?_
  exact (yields rest _ legible).map fun body _ last => ⟨inner, last⟩

theorem yields_forLoop (pos : Position) (ts : List Token) (h : ts.length ≤ n)
    (legible : LegibleEach ts) : (forLoop nested pos ts h).Yields Stmt.Legible := by
  refine (Attempt.Yields.clean (yields_loopHead ts legible)).andThen
    fun head rest _ legible clauses => Attempt.Yields.succ ?_
  exact (yields rest _ legible).map fun body _ last =>
    ⟨clauses.1, clauses.2.1, clauses.2.2, last⟩

theorem yields_statementFrom (t : Token) (ts : List Token) (h : ts.length < n)
    (legible : LegibleEach (t :: ts)) : (statementFrom nested t ts h).Yields Stmt.Legible := by
  have rest := legible.2
  unfold statementFrom
  dsimp only
  split
  · exact .clean (yields_varDeclaration t.pos ts rest).closed.succ
  · refine Attempt.Yields.succ ((Attempt.Yields.clean (yields_expect _ rest)).andThen
      fun _ rest _ legible _ => Attempt.Yields.succ ?_)
    exact yields_classDeclaration (fun ts _ => yields ts _) true t.pos rest _ legible
  · exact (yields_classDeclaration (fun ts _ => yields ts _) false t.pos ts _ rest).succ
  · exact (yields_function (fun ts _ => yields ts _) {} ts _ rest).succ
  · exact .clean (yields_returnStatement t.pos ts rest)
  · exact (yields_branch yields t.pos ts _ rest).succ
  · exact (yields_whileLoop yields t.pos ts _ rest).succ
  · exact (yields_forLoop yields t.pos ts _ rest).succ
  · exact (yields_blockBody (fun ts _ => yields ts _) ts _ rest).map fun _ _ inner => inner
  · exact .clean (yields_expressionStatement (t :: ts) legible).closed

end Nested

theorem yields_statement (ts : List Token) (legible : LegibleEach ts) :
    (statement ts).Yields Stmt.Legible := by
  cases ts with
  | nil =>
      rw [statement]
      exact .clean (yields_expressionStatement [] legible).closed
  | cons t ts =>
      rw [statement]
      exact yields_statementFrom (fun shorter _ => yields_statement shorter) t ts _ legible
termination_by ts.length

/-- The statements of a script are legible, and the last of them may be open at its end. -/
theorem legibleEach_topLevel (ts : List Token) (legible : LegibleEach ts) :
    Stmt.LegibleEach (topLevel ts).items true := by
  have read := (yields_sequence (fun ts _ => yields_statement ts) (fun _ => false) ts
    (Nat.le_refl _) legible).2
  rwa [show (sequence _ _ ts _).rest = [] from topLevel_rest ts] at read

end Parse

end Scriptlet
