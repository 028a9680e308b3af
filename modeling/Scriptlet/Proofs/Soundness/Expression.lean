import Scriptlet.Proofs.Grammar.Expression
import Scriptlet.Proofs.Parse.Reading

/-! # Soundness of the expression rules

What a rule reads without a fault is a phrase of the grammar. Every rule is proved sound for any
sound rule that reads what is nested in it; the recursion of `expression` then ties the knot. -/

namespace Scriptlet.Parse

open Grammar

/-! ## Levels of operators -/

/-- The operators of the levels are those of the strata from `p` up to the unary one. -/
def Stratified : List Level → Stratum → Prop
  | [], p => p = .unary
  | level :: tighter, p =>
      (∀ kind op, level.lookup kind = some op ↔ op.stratum = p ∧ op.kind = kind) ∧
        Stratified tighter p.tighter

theorem levels_stratified : Stratified levels .logicOr := by
  refine ⟨?_, ?_, ?_, ?_, ?_, ?_, rfl⟩
  all_goals
    intro kind op
    cases op <;>
      simp [List.lookup_cons, BinaryOp.stratum, BinaryOp.kind, Stratum.tighter] <;> grind

theorem unaryOp?_eq_some {kind : TokenKind} {op : UnaryOp} :
    unaryOp? kind = some op ↔ op.kind = kind := by
  cases op <;> cases kind <;> simp [unaryOp?, UnaryOp.kind]

theorem assignOp?_eq_some {kind : TokenKind} {op : AssignOp} :
    assignOp? kind = some op ↔ op.kind = kind := by
  cases op <;> cases kind <;> simp [assignOp?, AssignOp.kind]

/-! ## Expressions -/

section Expressions

variable {n : Nat} {e : Expr} {ts rest : List Token}

/-- The loop over one level keeps the phrase read so far on its left. -/
theorem operations_sound {p : Stratum} {level : Level} {operand : UpTo Parsed Expr n}
    (table : ∀ kind op, level.lookup kind = some op ↔ op.stratum = p ∧ op.kind = kind)
    (sound : ∀ ts h e rest, (operand ts h).read? = some (e, rest) → Phrase p.tighter ts e rest)
    {start : List Token} {left : Expr} (phrase : Phrase p start left ts) (h : ts.length ≤ n)
    (read : (operations level operand left ts h).read? = some (e, rest)) :
    Phrase p start e rest := by
  induction len : ts.length using Nat.strongRecOn generalizing ts left with
  | ind len ih =>
      subst len
      cases ts with
      | nil =>
          rw [operations] at read
          obtain ⟨rfl, rfl⟩ := Parsed.eq_of_read?_done read
          exact phrase
      | cons t ts =>
          rw [operations] at read
          split at read
          · rename_i op hop
            obtain ⟨hs, hk⟩ := (table _ _).mp hop
            simp only [Parsed.read?_succ, Parsed.read?_andThen] at read
            obtain ⟨right, mid, shorter, hr, hp⟩ := read
            exact ih mid.length (Nat.lt_succ_of_lt shorter)
              (.operation hs phrase ⟨hk.symm⟩ (sound _ _ _ _ hr)) _ hp rfl
          · obtain ⟨rfl, rfl⟩ := Parsed.eq_of_read?_done read
            exact phrase

variable {nested : Below Parsed Expr n}
  (sound : ∀ ts h e rest, (nested ts h).read? = some (e, rest) → Expression ts e rest)
include sound

theorem primary_sound
    (h : ts.length ≤ n) (read : (primary nested ts h).read? = some (e, rest)) :
    Phrase .primary ts e rest := by
  cases ts with
  | nil => simp [primary] at read
  | cons t ts =>
      simp only [primary] at read
      split at read
      · rename_i kind
        obtain ⟨rfl, rfl⟩ := Parsed.eq_of_read?_done read
        exact .no ⟨kind⟩
      · rename_i kind
        obtain ⟨rfl, rfl⟩ := Parsed.eq_of_read?_done read
        exact .yes ⟨kind⟩
      · rename_i kind
        obtain ⟨rfl, rfl⟩ := Parsed.eq_of_read?_done read
        exact .null ⟨kind⟩
      · rename_i kind
        split at read
        · rename_i value hv
          obtain ⟨rfl, rfl⟩ := Parsed.eq_of_read?_done read
          exact .number kind hv
        · simp at read
      · rename_i kind
        obtain ⟨rfl, rfl⟩ := Parsed.eq_of_read?_done read
        exact .string kind
      · rename_i kind
        obtain ⟨name, ⟨rfl, hn⟩, rfl⟩ : ∃ name, (ts = name :: rest ∧ name.kind = _) ∧ _ = e := by
          simpa using read
        exact .new ⟨kind⟩ (.intro hn)
      · rename_i kind
        obtain ⟨rfl, rfl⟩ := Parsed.eq_of_read?_done read
        exact .this ⟨kind⟩
      · rename_i kind
        obtain ⟨rfl, rfl⟩ := Parsed.eq_of_read?_done read
        exact .name ⟨kind⟩
      · rename_i kind
        simp only [Parsed.read?_succ, Parsed.read?_andThen, Parsed.read?_map, read?_expect] at read
        obtain ⟨inner, mid, shorter, hi, close, ⟨rfl, hc⟩, rfl⟩ := read
        exact .group ⟨kind⟩ (sound _ _ _ _ hi) ⟨hc⟩
      · simp at read

theorem arguments_sound
    {args : List Expr} (h : ts.length < n)
    (read : (arguments nested ts h).read? = some (args, rest)) : Arguments ts args rest := by
  induction len : ts.length using Nat.strongRecOn generalizing ts args with
  | ind len ih =>
      subst len
      rw [arguments] at read
      obtain ⟨e, mid, shorter, he, hm⟩ := (Parsed.read?_andThen _ _).mp read
      cases mid with
      | nil =>
          obtain ⟨rfl, rfl⟩ := Parsed.eq_of_read?_done hm
          exact .one (sound _ _ _ _ he)
      | cons t mid =>
          dsimp only at hm
          split at hm
          · rename_i comma
            simp only [Parsed.read?_succ, Parsed.read?_map] at hm
            obtain ⟨es, hes, rfl⟩ := hm
            exact .more (sound _ _ _ _ he) ⟨comma⟩ (ih _ (tail_lt_of_lt shorter) _ hes rfl)
          · obtain ⟨rfl, rfl⟩ := Parsed.eq_of_read?_done hm
            exact .one (sound _ _ _ _ he)

theorem postfixes_sound
    {start : List Token} {head : Expr} (phrase : Phrase .call start head ts) (h : ts.length ≤ n)
    (read : (postfixes nested head ts h).read? = some (e, rest)) : Phrase .call start e rest := by
  induction len : ts.length using Nat.strongRecOn generalizing ts head with
  | ind len ih =>
      subst len
      cases ts with
      | nil =>
          rw [postfixes] at read
          obtain ⟨rfl, rfl⟩ := Parsed.eq_of_read?_done read
          exact phrase
      | cons t ts =>
          rw [postfixes] at read
          split at read
          · rename_i paren
            simp only [Parsed.read?_succ, Parsed.read?_andThen] at read
            obtain ⟨⟨args, close⟩, mid, shorter, ha, hp⟩ := read
            refine ih mid.length (Nat.lt_succ_of_lt shorter) ?_ _ hp rfl
            unfold callArguments at ha
            split at ha
            · simp only [Parsed.read?_map, read?_expect] at ha
              obtain ⟨_, ⟨rfl, hc⟩, hargs⟩ := ha
              obtain ⟨rfl, rfl⟩ := Prod.mk.inj hargs
              exact .emptyCall phrase ⟨paren⟩ ⟨hc⟩
            · simp only [Parsed.read?_succ, Parsed.read?_andThen, Parsed.read?_map,
                read?_expect] at ha
              obtain ⟨_, _, _, hl, _, ⟨rfl, hc⟩, hargs⟩ := ha
              obtain ⟨rfl, rfl⟩ := Prod.mk.inj hargs
              exact .call phrase ⟨paren⟩ (arguments_sound sound _ hl) ⟨hc⟩
          · split at read
            · rename_i dot
              simp only [Parsed.read?_succ, Parsed.read?_andThen, read?_expect] at read
              obtain ⟨name, mid, shorter, ⟨rfl, hn⟩, hp⟩ := read
              exact ih mid.length (Nat.lt_succ_of_lt shorter)
                (.member phrase ⟨dot⟩ (.intro hn)) _ hp rfl
            · obtain ⟨rfl, rfl⟩ := Parsed.eq_of_read?_done read
              exact phrase

theorem call_sound
    (h : ts.length ≤ n) (read : (call nested ts h).read? = some (e, rest)) :
    Phrase .call ts e rest := by
  obtain ⟨head, mid, shorter, hh, hp⟩ := (Parsed.read?_andThen _ _).mp read
  exact postfixes_sound sound (.tighter (primary_sound sound h hh)) _ hp

theorem unary_sound
    (h : ts.length ≤ n) (read : (unary nested ts h).read? = some (e, rest)) :
    Phrase .unary ts e rest := by
  induction ts generalizing e with
  | nil => exact .tighter (call_sound sound h read)
  | cons t ts ih =>
      rw [unary] at read
      split at read
      · rename_i op hop
        simp only [Parsed.read?_succ, Parsed.read?_map] at read
        obtain ⟨operand, ho, rfl⟩ := read
        exact .unary ⟨(unaryOp?_eq_some.mp hop).symm⟩ (ih _ ho)
      · exact .tighter (call_sound sound h read)

theorem binary_sound
    {levels : List Level} {p : Stratum} (strata : Stratified levels p) (h : ts.length ≤ n)
    (read : (binary nested levels ts h).read? = some (e, rest)) : Phrase p ts e rest := by
  induction levels generalizing p ts e rest with
  | nil =>
      obtain rfl := strata
      exact unary_sound sound h read
  | cons level tighter ih =>
      obtain ⟨table, strata⟩ := strata
      obtain ⟨left, mid, shorter, hl, ho⟩ := (Parsed.read?_andThen _ _).mp read
      exact operations_sound table (fun _ h _ _ => ih strata h) (.tighter (ih strata h hl)) _ ho

theorem assignment_sound
    (h : ts.length ≤ n) (read : (assignment nested ts h).read? = some (e, rest)) :
    Expression ts e rest := by
  obtain ⟨target, mid, shorter, ht, hm⟩ := (Parsed.read?_andThen _ _).mp read
  have phrase := binary_sound sound levels_stratified h ht
  cases mid with
  | nil =>
      obtain ⟨rfl, rfl⟩ := Parsed.eq_of_read?_done hm
      exact .tighter phrase
  | cons t mid =>
      dsimp only at hm
      split at hm
      · rename_i op hop
        simp only [Parsed.read?_succ, Parsed.read?_andThen] at hm
        obtain ⟨value, after, _, hv, hm⟩ := hm
        split at hm
        · rename_i valid
          obtain ⟨rfl, rfl⟩ := Parsed.eq_of_read?_done hm
          exact .assign phrase valid ⟨(assignOp?_eq_some.mp hop).symm⟩ (sound _ _ _ _ hv)
        · simp at hm
      · obtain ⟨rfl, rfl⟩ := Parsed.eq_of_read?_done hm
        exact .tighter phrase

end Expressions

/-- What is read as an expression is one. -/
theorem expression_sound {ts rest : List Token} {e : Expr}
    (read : (expression ts).read? = some (e, rest)) : Expression ts e rest := by
  induction len : ts.length using Nat.strongRecOn generalizing ts e rest with
  | ind len ih =>
      subst len
      rw [expression] at read
      exact assignment_sound (fun _ h _ _ hr => ih _ h hr rfl) _ read

end Scriptlet.Parse
