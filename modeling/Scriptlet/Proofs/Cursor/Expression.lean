import Scriptlet.Proofs.Cursor.Agreement

/-! # Walks over expressions

One lemma for each rule, under the assumption that nested expressions are walked over as they are
read. -/

namespace Scriptlet.Tokens

open Parse Cursor Script

variable {pre ts us : List Token} {n : Nat} {t : Token}

theorem reads_literal (within : t :: us <:+ body ts) (e : Expr) :
    Reads pre ts (literal (pre ++ ts) e) (t :: us) (.take e t us) :=
  .advanced within (.pure e us)

theorem lookup_unaryOps (kind : TokenKind) : unaryOps.lookup kind = unaryOp? kind := by
  cases kind <;> rfl

theorem lookup_assignOps (kind : TokenKind) : assignOps.lookup kind = assignOp? kind := by
  cases kind <;> rfl

/-- The tokens behind the first one are read as well. -/
theorem tail_within (within : t :: us <:+ body ts) : us <:+ body ts :=
  (List.suffix_cons t us).trans within

section Rules

variable {nested : Below Parsed Expr n}
  (agrees : ∀ us h, us <:+ body ts → Reads pre ts (expression (pre ++ ts)) us (nested us h))
include agrees

theorem reads_primary (within : us <:+ body ts) (h : us.length ≤ n) :
    Reads pre ts (primary (pre ++ ts)) us (Parse.primary nested us h) := by
  rw [primary]
  refine .get fun reports => ?_
  cases us with
  | nil =>
      simp only [peek_before within, List.head?_nil, Option.getD_none, endOf_kind]
      exact .blame within _ reports
  | cons t us =>
      simp only [peek_before within, List.head?_cons, Option.getD_some]
      obtain ⟨kind, lexeme, pos⟩ := t
      cases kind with
      | kwFalse | kwTrue | kwNull | string | kwThis | identifier => exact reads_literal within _
      | number =>
          simp only [Parse.primary]
          cases Number.ofDecimal? lexeme with
          | some value => exact reads_literal within _
          | none => exact .blame within _ reports
      | kwNew =>
          refine .advanced within ?_
          exact ((reads_demand _ (tail_within within)).map _).succ
      | leftParen =>
          refine .advanced within ?_
          refine (Reads.bind (agrees us _ (tail_within within)) fun e rest _ suffix => ?_).succ
          exact ((reads_demand _ (suffix.trans (tail_within within))).map _).succ
      | endOfInput => exact absurd rfl (body_kind (within.subset List.mem_cons_self))
      | _ => exact .blame within _ reports

theorem reads_arguments (us : List Token) (within : us <:+ body ts) (h : us.length < n) :
    Reads pre ts (arguments (pre ++ ts)) us (Parse.arguments nested us h) := by
  rw [arguments, Parse.arguments]
  refine Reads.bind (agrees us h within) fun e rest shorter suffix => ?_
  have inside := suffix.trans within
  cases rest with
  | nil => exact .refused inside rfl (.pure [e] [])
  | cons t rest =>
      dsimp only
      split
      · rename_i comma
        refine .accepted inside comma ?_
        exact ((reads_arguments rest (tail_within inside) _).map _).succ.succ
      · rename_i other
        exact .refused inside (decide_eq_false other) (.pure [e] (t :: rest))
termination_by us.length
decreasing_by exact tail_lt_of_lt shorter

theorem reads_callArguments (within : us <:+ body ts) (h : us.length < n) :
    Reads pre ts (callArguments (pre ++ ts)) us (Parse.callArguments nested us h) := by
  rw [callArguments, Parse.callArguments]
  refine .get fun reports => ?_
  rw [check_before _ within]
  split
  · exact (reads_demand _ within).map _
  · refine Reads.bind (reads_arguments agrees us within h) fun args rest _ suffix => ?_
    exact ((reads_demand _ (suffix.trans within)).map _).succ

theorem reads_postfixes : ∀ (e : Expr) (us : List Token) (h : us.length ≤ n), us <:+ body ts →
    Reads pre ts (postfixes (pre ++ ts) e) us (Parse.postfixes nested e us h)
  | e, [], h, within => by
      rw [postfixes, Parse.postfixes]
      exact .refused within rfl (.refused within rfl (.pure e []))
  | e, t :: us, h, within => by
      have inside := tail_within within
      rw [postfixes, Parse.postfixes]
      split
      · rename_i paren
        refine .accepted within paren ?_
        refine (Reads.bind (reads_callArguments agrees inside _)
          fun call rest shorter suffix => ?_).succ.succ
        exact reads_postfixes _ rest _ (suffix.trans inside)
      · rename_i other
        refine .refused within (decide_eq_false other) ?_
        split
        · rename_i dot
          refine .accepted within dot ?_
          refine (Reads.bind (reads_demand _ inside) fun name rest shorter suffix => ?_).succ.succ
          exact reads_postfixes _ rest _ (suffix.trans inside)
        · rename_i other'
          exact .refused within (decide_eq_false other') (.pure e (t :: us))
termination_by _ us => us.length
decreasing_by all_goals exact Nat.lt_succ_of_lt shorter

theorem reads_call (within : us <:+ body ts) (h : us.length ≤ n) :
    Reads pre ts (call (pre ++ ts)) us (Parse.call nested us h) := by
  rw [call]
  exact Reads.bind (reads_primary agrees within h) fun e rest _ suffix =>
    reads_postfixes agrees e rest _ (suffix.trans within)

theorem reads_unary (within : us <:+ body ts) (h : us.length ≤ n) :
    Reads pre ts (unary (pre ++ ts)) us (Parse.unary nested us h) := by
  induction us with
  | nil =>
      rw [unary]
      exact .noOperator within (by simp) (reads_call agrees within h)
  | cons t us ih =>
      have inside := tail_within within
      rw [unary, Parse.unary]
      split
      · rename_i op spelled
        refine .operator within ((lookup_unaryOps t.kind).trans spelled) (.get fun reports => ?_)
        rw [previous_before within]
        exact ((ih inside _).map _).succ
      · rename_i absent
        refine .noOperator within ?_ (reads_call agrees within h)
        simpa [lookup_unaryOps] using absent

omit agrees in
theorem reads_operations {level : Level} {tighter : List Level}
    (operands : ∀ us h, us <:+ body ts →
      Reads pre ts (binary (pre ++ ts) tighter) us (Parse.binary nested tighter us h)) :
    ∀ (left : Expr) (us : List Token) (h : us.length ≤ n), us <:+ body ts →
      Reads pre ts (operations (pre ++ ts) level tighter left) us
        (Parse.operations level (Parse.binary nested tighter) left us h)
  | left, [], h, within => by
      rw [operations, Parse.operations]
      exact .noOperator within (by simp) (.pure left [])
  | left, t :: us, h, within => by
      have inside := tail_within within
      rw [operations, Parse.operations]
      split
      · rename_i op spelled
        refine .operator within spelled (.get fun reports => ?_)
        rw [previous_before within]
        refine (Reads.bind (operands us _ inside) fun right rest shorter suffix => ?_).succ.succ
        exact reads_operations operands _ rest _ (suffix.trans inside)
      · rename_i absent
        exact .noOperator within (by simpa using absent) (.pure left (t :: us))
termination_by _ us => us.length
decreasing_by exact Nat.lt_succ_of_lt shorter

theorem reads_binary (levels : List Level) (us : List Token) (h : us.length ≤ n)
    (within : us <:+ body ts) :
    Reads pre ts (binary (pre ++ ts) levels) us (Parse.binary nested levels us h) := by
  induction levels generalizing us with
  | nil =>
      rw [binary]
      exact reads_unary agrees within h
  | cons level tighter ih =>
      rw [binary]
      exact Reads.bind (ih us h within) fun left rest _ suffix =>
        reads_operations ih left rest _ (suffix.trans within)

theorem reads_assignment (within : us <:+ body ts) (h : us.length ≤ n) :
    Reads pre ts (expression (pre ++ ts)) us (assignment nested us h) := by
  rw [expression]
  refine Reads.bind (reads_binary agrees levels us h within) fun target rest shorter suffix => ?_
  have inside := suffix.trans within
  cases rest with
  | nil => exact .noOperator inside (by simp) (.pure target [])
  | cons t rest =>
      dsimp only
      cases spelled : assignOp? t.kind with
      | none =>
          refine .noOperator inside ?_ (.pure target (t :: rest))
          simpa [lookup_assignOps] using spelled
      | some op =>
          have value := agrees rest (Parse.lt_of_lt_of_le (tail_lt_of_lt shorter) h)
            (tail_within inside)
          -- The sign is blamed behind the value, so the order is not that of the two parts.
          refine Reads.succ (Reads.succ
            ⟨value.orderly.judged .invalidTarget fun stored left _ => ?_, ?_⟩)
          · cases target.isTarget with
            | true => exact .inl ⟨_, rfl⟩
            | false => exact .inr rfl
          · refine .operator (.get fun reports => ?_) inside ((lookup_assignOps _).trans spelled)
            rw [previous_before inside, ← Attempt.clean_andThen]
            refine value.runs.bind fun stored left _ _ => ?_
            cases target.isTarget with
            | true => exact (Agrees.pure _ left).runs
            | false => exact runs_clean fun _ => rfl

end Rules

theorem reads_expression (us : List Token) (within : us <:+ body ts) :
    Reads pre ts (expression (pre ++ ts)) us (Parse.expression us) := by
  rw [Parse.expression]
  exact reads_assignment (fun shorter _ inside => reads_expression shorter inside) within _
termination_by us.length

end Scriptlet.Tokens
