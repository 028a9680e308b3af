import Scriptlet.Proofs.Parse.Reading
import Scriptlet.Proofs.Parse.Stopping

/-! # Keywords and the statements they start

A reading without faults gives one statement for every keyword that starts one. A reading that got
over faults gives no more than that, since what is passed over is lost. -/

namespace Scriptlet

/-! ## Keywords -/

namespace Stmt

mutual

/-- How many keywords that start statements were written for the statement and its parts. -/
def keywords : Stmt → Nat
  | .expression .. | .property .. => 0
  | .varDecl .. | .returning .. => 1
  | .branch _ _ consequent alternative => keywordsOption alternative + (consequent.keywords + 1)
  | .whileLoop _ _ body => body.keywords + 1
  | .forLoop _ initializer _ _ body => body.keywords + (keywordsOption initializer + 1)
  | .block _ body => keywordsEach body
  | .function _ _ _ body _ => keywordsEach body + 1
  | .classDecl _ _ members _ => keywordsEach members + 1

@[inherit_doc keywords]
def keywordsOption : Option Stmt → Nat
  | some s => s.keywords
  | none => 0

@[inherit_doc keywords]
def keywordsEach : List Stmt → Nat
  | [] => 0
  | s :: ss => keywordsEach ss + s.keywords

end

end Stmt

namespace Parse

open Stmt

variable {α β : Type} {n total : Nat} {t : Token} {ts : List Token}

/-- How many of the tokens start statements. -/
def keywordCount (ts : List Token) : Nat :=
  ts.countP startsStatement

theorem keywordCount_append (front back : List Token) :
    keywordCount (front ++ back) = keywordCount front + keywordCount back :=
  List.countP_append

theorem keywordCount_of_plain (h : startsStatement t = false) :
    keywordCount (t :: ts) = keywordCount ts :=
  List.countP_cons_of_neg (by simp [h])

theorem keywordCount_of_keyword (h : startsStatement t = true) :
    keywordCount (t :: ts) = keywordCount ts + 1 :=
  List.countP_cons_of_pos h

theorem keywordCount_synchronize (t : Token) (ts : List Token) :
    keywordCount (synchronize (t :: ts)) ≤ keywordCount ts := by
  induction ts generalizing t with
  | nil => simp [synchronize]
  | cons next ts ih =>
      rw [synchronize]
      split
      · exact Nat.le_refl _
      · exact Nat.le_trans (ih next) (List.sublist_cons_self next ts).countP_le

theorem keywordCount_synchronize_le (ts : List Token) :
    keywordCount (synchronize ts) ≤ keywordCount ts := by
  cases ts with
  | nil => exact Nat.le_refl _
  | cons t ts =>
      exact Nat.le_trans (keywordCount_synchronize t ts) (List.sublist_cons_self t ts).countP_le

/-! ## Rules that use up no keyword -/

namespace Parsed

/-- As many keywords are left as there were. -/
def Plain (total : Nat) : Parsed α n → Prop
  | .ok _ rest _ => keywordCount rest = total
  | .error _ rest _ => keywordCount rest ≤ total

variable {x : Parsed α n}

theorem Plain.mono {m : Nat} (h : x.Plain total) (le : n ≤ m) : (x.mono le).Plain total := by
  cases x <;> exact h

theorem Plain.succ (h : x.Plain total) : x.succ.Plain total :=
  h.mono _

theorem Plain.map (h : x.Plain total) (f : α → β) : (x.map f).Plain total := by
  cases x <;> exact h

theorem Plain.andThen {f : α → (rest : List Token) → rest.length < n → Parsed β (rest.length + 1)}
    (h : x.Plain total) (next : ∀ a rest shorter, (f a rest shorter).Plain (keywordCount rest)) :
    (x.andThen f).Plain total := by
  cases x with
  | error fault rest bounded => exact h
  | ok a rest shorter =>
      obtain rfl : keywordCount rest = total := h
      exact (next a rest shorter).mono shorter

end Parsed

open Parsed

theorem plain_done (value : α) (rest : List Token) : (done value rest).Plain (keywordCount rest) :=
  rfl

theorem plain_take (h : startsStatement t = false) (value : α) (rest : List Token) :
    (take value t rest).Plain (keywordCount (t :: rest)) :=
  (keywordCount_of_plain h).symm

theorem plain_fail (fault : Fault) (rest : List Token) :
    (fail fault rest : Parsed α _).Plain (keywordCount rest) :=
  Nat.le_refl _

/-- One token before the others. -/
theorem Parsed.Plain.cons {x : Parsed α n} (h : x.Plain (keywordCount ts))
    (plain : startsStatement t = false) : x.succ.Plain (keywordCount (t :: ts)) := by
  rw [keywordCount_of_plain plain]
  exact h.succ

theorem plain_expect {what : Expectation} (other : what ≠ .classAfterStatic) (ts : List Token) :
    (expect what ts).Plain (keywordCount ts) := by
  cases ts with
  | nil => exact plain_fail _ []
  | cons t ts =>
      rw [expect]
      split
      · rename_i kind
        have plain : startsStatement t = false := by
          unfold startsStatement
          rw [kind]
          cases what with
          | classAfterStatic => exact absurd rfl other
          | _ => rfl
        exact plain_take plain t ts
      · exact plain_fail _ (t :: ts)

theorem not_inExpression_of_keyword (keyword : startsStatement t) :
    t.kind.inExpression = false ∧ t.kind ≠ .semicolon := by
  unfold startsStatement at keyword
  split at keyword
  case h_8 => cases keyword
  all_goals
    rename_i kind
    rw [kind]
    exact ⟨rfl, by decide⟩

theorem keywordCount_of_inExpression (h : ∀ t ∈ ts, t.kind.inExpression) :
    keywordCount ts = 0 := by
  rw [keywordCount, List.countP_eq_zero]
  intro t mem keyword
  have outside := (not_inExpression_of_keyword keyword).1
  rw [h t mem] at outside
  cases outside

theorem Follows.plain {m : Nat} {tail : List Token} {x : Parsed α m} {y : Parsed α n}
    (h : Follows ts tail x y) (inside : ∀ t ∈ ts, t.kind.inExpression) :
    y.Plain (keywordCount (ts ++ tail)) := by
  have none_in : ∀ rest, rest <:+ ts → keywordCount rest = 0 := fun rest suffix =>
    keywordCount_of_inExpression fun t mem => inside t (suffix.subset mem)
  have same : ∀ rest, rest <:+ ts → keywordCount (rest ++ tail) = keywordCount (ts ++ tail) := by
    intro rest suffix
    rw [keywordCount_append, keywordCount_append, none_in rest suffix,
      none_in ts List.suffix_rfl]
  cases h with
  | ok suffix => exact same _ suffix
  | error suffix => exact Nat.le_of_eq (same _ suffix)

theorem plain_expression (ts : List Token) : (expression ts).Plain (keywordCount ts) := by
  have inside := List.all_eq_true.mp (List.all_takeWhile (p := (·.kind.inExpression)) (l := ts))
  have plain := (follows_expression (barred_dropWhile ts) _).plain inside
  rwa [List.takeWhile_append_dropWhile] at plain

theorem plain_initializer (ts : List Token) : (initializer ts).Plain (keywordCount ts) := by
  cases ts with
  | nil => exact plain_done none []
  | cons t ts =>
      rw [initializer]
      split
      · rename_i equal
        exact ((plain_expression ts).map some).succ.cons (by simp [startsStatement, equal])
      · exact plain_done none (t :: ts)

theorem plain_parameterNames (ts : List Token) : (parameterNames ts).Plain (keywordCount ts) := by
  rw [parameterNames]
  refine (plain_expect (by decide) ts).andThen fun name rest shorter => ?_
  cases rest with
  | nil => exact plain_done [name.lexeme] []
  | cons t rest =>
      dsimp only
      split
      · rename_i comma
        exact ((plain_parameterNames rest).map _).succ.cons (by simp [startsStatement, comma])
      · exact plain_done [name.lexeme] (t :: rest)
termination_by ts.length
decreasing_by exact tail_lt_of_lt shorter

theorem plain_parameters (ts : List Token) : (parameters ts).Plain (keywordCount ts) := by
  unfold parameters
  split
  · exact plain_done [] ts
  · exact (plain_parameterNames ts).succ

theorem plain_functionHead (ts : List Token) : (functionHead ts).Plain (keywordCount ts) := by
  refine (plain_expect (by decide) ts).andThen fun name rest _ => Plain.succ ?_
  refine (plain_expect (by decide) rest).andThen fun _ rest _ => ?_
  refine (plain_parameters rest).andThen fun params rest _ => Plain.succ ?_
  refine (plain_expect (by decide) rest).andThen fun _ rest _ => Plain.succ ?_
  exact (plain_expect (by decide) rest).map _

theorem plain_classHead (ts : List Token) : (classHead ts).Plain (keywordCount ts) := by
  refine (plain_expect (by decide) ts).andThen fun name rest _ => Plain.succ ?_
  exact (plain_expect (by decide) rest).map _

theorem plain_condition {opening closing : Expectation} (ho : opening ≠ .classAfterStatic)
    (hc : closing ≠ .classAfterStatic) (ts : List Token) :
    (condition opening closing ts).Plain (keywordCount ts) := by
  refine (plain_expect ho ts).andThen fun _ rest _ => Plain.succ ?_
  refine (plain_expression rest).andThen fun e rest _ => Plain.succ ?_
  exact (plain_expect hc rest).map _

theorem plain_loopClause (closing : TokenKind) (ts : List Token) :
    (loopClause closing ts).Plain (keywordCount ts) := by
  unfold loopClause
  split
  · exact plain_done none ts
  · exact ((plain_expression ts).map some).succ

theorem plain_returnValue (ts : List Token) : (returnValue ts).Plain (keywordCount ts) := by
  unfold returnValue
  split
  · exact plain_done none ts
  · exact ((plain_expression ts).map some).succ

theorem plain_returnEnd (ts : List Token) : (returnEnd ts).Plain (keywordCount ts) := by
  cases ts with
  | nil => exact plain_done () []
  | cons t ts =>
      rw [returnEnd]
      split
      · rename_i semicolon
        exact (plain_take (by simp [startsStatement, semicolon]) () ts).succ
      · split
        · exact plain_done () (t :: ts)
        · exact (plain_fail _ (t :: ts)).succ

/-! ## Rules that start statements -/

namespace Parsed

/-- Of `total` keywords, those that are not left are in the value. -/
def Counts (total : Nat) (weight : α → Nat) : Parsed α n → Prop
  | .ok value rest _ => keywordCount rest + weight value = total
  | .error _ rest _ => keywordCount rest ≤ total

variable {weight : α → Nat} {x : Parsed α n}

theorem Counts.mono {m : Nat} (h : x.Counts total weight) (le : n ≤ m) :
    (x.mono le).Counts total weight := by
  cases x <;> exact h

theorem Counts.succ (h : x.Counts total weight) : x.succ.Counts total weight :=
  h.mono _

theorem Counts.map {f : α → β} {weight : β → Nat} (h : x.Counts total fun a => weight (f a)) :
    (x.map f).Counts total weight := by
  cases x <;> exact h

theorem Counts.andThen {weight' : β → Nat}
    {f : α → (rest : List Token) → rest.length < n → Parsed β (rest.length + 1)}
    (h : x.Counts total weight)
    (next : ∀ a rest shorter,
      (f a rest shorter).Counts (keywordCount rest + weight a) weight') :
    (x.andThen f).Counts total weight' := by
  cases x with
  | error fault rest bounded => exact h
  | ok a rest shorter =>
      obtain rfl : keywordCount rest + weight a = total := h
      exact (next a rest shorter).mono shorter

theorem Counts.add (h : x.Counts total weight) (k : Nat) :
    x.Counts (total + k) fun a => weight a + k := by
  cases x with
  | error fault rest bounded => exact Nat.le_add_right_of_le h
  | ok a rest shorter =>
      obtain rfl : keywordCount rest + weight a = total := h
      exact (Nat.add_assoc _ _ _).symm

/-- The keywords of the value came before. -/
theorem Plain.counts (h : x.Plain total) {k : Nat} (same : ∀ a, weight a = k) :
    x.Counts (total + k) weight := by
  cases x with
  | error fault rest bounded => exact Nat.le_add_right_of_le h
  | ok a rest shorter =>
      obtain rfl : keywordCount rest = total := h
      exact congrArg (keywordCount rest + ·) (same a)

theorem Plain.andThen_counts {weight' : β → Nat} {k : Nat}
    {f : α → (rest : List Token) → rest.length < n → Parsed β (rest.length + 1)}
    (h : x.Plain total)
    (next : ∀ a rest shorter, (f a rest shorter).Counts (keywordCount rest + k) weight') :
    (x.andThen f).Counts (total + k) weight' := by
  have counts : x.Counts (total + k) fun _ => k := h.counts fun _ => rfl
  exact counts.andThen next

end Parsed

theorem counts_expressionStatement (ts : List Token) :
    (expressionStatement ts).Counts (keywordCount ts) Stmt.keywords := by
  refine Plain.andThen_counts (k := 0) (plain_expression ts) fun e rest _ => Counts.succ ?_
  exact Counts.map ((plain_expect (by decide) rest).counts fun _ => rfl)

theorem counts_varDeclaration (pos : Position) (ts : List Token) :
    (varDeclaration pos ts).Counts (keywordCount ts + 1) Stmt.keywords := by
  refine (plain_expect (by decide) ts).andThen_counts fun name rest _ => ?_
  refine (plain_initializer rest).andThen_counts fun value rest _ => Counts.succ ?_
  exact Counts.map ((plain_expect (by decide) rest).counts fun _ => rfl)

theorem counts_property (modifiers : Modifiers) (ts : List Token) :
    (property modifiers ts).Counts (keywordCount ts) Stmt.keywords := by
  refine Plain.andThen_counts (k := 0) (plain_expect (by decide) ts) fun name rest _ => ?_
  refine (plain_initializer rest).andThen_counts fun value rest _ => Counts.succ ?_
  exact Counts.map ((plain_expect (by decide) rest).counts fun _ => rfl)

theorem counts_returnStatement (pos : Position) (ts : List Token) :
    (returnStatement pos ts).Counts (keywordCount ts + 1) Stmt.keywords := by
  refine (plain_returnValue ts).andThen_counts fun value rest _ => ?_
  exact Counts.map ((plain_returnEnd rest).counts fun _ => rfl)

theorem counts_loopStart (ts : List Token) :
    (loopStart ts).Counts (keywordCount ts) keywordsOption := by
  cases ts with
  | nil => exact Counts.map (counts_expressionStatement [])
  | cons t ts =>
      rw [loopStart]
      split
      · rename_i semicolon
        exact (keywordCount_of_plain (by simp [startsStatement, semicolon])).symm
      · split
        · rename_i keyword
          rw [keywordCount_of_keyword (by simp [startsStatement, keyword])]
          exact Counts.succ (Counts.map (counts_varDeclaration t.pos ts))
        · exact Counts.map (counts_expressionStatement (t :: ts))

theorem counts_loopHead (ts : List Token) :
    (loopHead ts).Counts (keywordCount ts) fun head => keywordsOption head.1 := by
  refine Plain.andThen_counts (k := 0) (plain_expect (by decide) ts) fun _ rest _ => Counts.succ ?_
  refine (counts_loopStart rest).andThen fun start rest _ => ?_
  refine (plain_loopClause _ rest).andThen_counts fun test rest _ => Counts.succ ?_
  refine (plain_expect (by decide) rest).andThen_counts fun _ rest _ => ?_
  refine (plain_loopClause _ rest).andThen_counts fun step rest _ => Counts.succ ?_
  exact Counts.map ((plain_expect (by decide) rest).counts fun _ => rfl)

theorem counts_expectClass (ts : List Token) :
    (expect .classAfterStatic ts).Counts (keywordCount ts) fun _ => 1 := by
  cases ts with
  | nil => exact Nat.le_refl _
  | cons t ts =>
      rw [expect]
      split
      · rename_i kind
        exact (keywordCount_of_keyword (by simp [startsStatement, kind, Expectation.kind])).symm
      · exact Nat.le_refl _

/-! ## Rules that get over faults -/

/-- Of `total` keywords, those that are not left are in the items or were passed over. -/
def Balanced (total : Nat) (log : List Fault) (weight : Nat) (rest : List Token) : Prop :=
  keywordCount rest + weight ≤ total ∧ (log = [] → keywordCount rest + weight = total)

theorem Balanced.trans {log log' : List Fault} {weight weight' : Nat} {rest rest' : List Token}
    (h : Balanced total log weight rest)
    (h' : Balanced (keywordCount rest + weight) log' weight' rest') :
    Balanced total (log ++ log') weight' rest' := by
  refine ⟨Nat.le_trans h'.1 h.1, fun none_lost => ?_⟩
  obtain ⟨first, second⟩ := List.append_eq_nil_iff.mp none_lost
  exact (h'.2 second).trans (h.2 first)

/-- Keywords that came before. -/
theorem Balanced.add {log : List Fault} {weight : Nat} {rest : List Token}
    (h : Balanced total log weight rest) (k : Nat) :
    Balanced (total + k) log (weight + k) rest := by
  obtain ⟨bounded, all⟩ := h
  refine ⟨by omega, fun none_lost => ?_⟩
  have same := all none_lost
  omega

namespace Attempt

@[inherit_doc Balanced]
def Counts (total : Nat) (weight : α → Nat) (a : Attempt α n) : Prop :=
  match a.result with
  | .ok value rest _ => Balanced total a.log (weight value) rest
  | .error _ rest _ => keywordCount rest ≤ total

variable {weight : α → Nat} {a : Attempt α n}

theorem Counts.clean {x : Parsed α n} (h : x.Counts total weight) :
    (clean x).Counts total weight := by
  cases x with
  | ok value rest _ => exact ⟨Nat.le_of_eq h, fun _ => h⟩
  | error fault rest _ => exact h

theorem Counts.succ (h : a.Counts total weight) : a.succ.Counts total weight := by
  obtain ⟨log, result⟩ := a
  cases result <;> exact h

theorem Counts.add (h : a.Counts total weight) (k : Nat) :
    a.Counts (total + k) fun v => weight v + k := by
  obtain ⟨log, result⟩ := a
  cases result with
  | ok value rest _ => exact Balanced.add h k
  | error fault rest _ => exact Nat.le_add_right_of_le h

theorem Counts.map {f : α → β} {weight : β → Nat} (h : a.Counts total fun v => weight (f v)) :
    (a.map f).Counts total weight := by
  obtain ⟨log, result⟩ := a
  cases result <;> exact h

theorem Counts.andThen {weight' : β → Nat}
    {f : α → (rest : List Token) → rest.length < n → Attempt β (rest.length + 1)}
    (h : a.Counts total weight)
    (next : ∀ v rest shorter,
      (f v rest shorter).Counts (keywordCount rest + weight v) weight') :
    (a.andThen f).Counts total weight' := by
  obtain ⟨log, result⟩ := a
  cases result with
  | error fault rest bounded => exact h
  | ok v rest shorter =>
      have before : Balanced total log (weight v) rest := h
      have after := next v rest shorter
      simp only [Counts, Attempt.andThen] at after ⊢
      cases result : (f v rest shorter).result with
      | ok value rest' _ =>
          rw [result] at after
          exact before.trans after
      | error fault rest' _ =>
          rw [result] at after
          exact Nat.le_trans after before.1

theorem counts_plain_andThen {weight' : β → Nat} {k : Nat} {x : Parsed α n}
    {f : α → (rest : List Token) → rest.length < n → Attempt β (rest.length + 1)}
    (h : x.Plain total)
    (next : ∀ v rest shorter, (f v rest shorter).Counts (keywordCount rest + k) weight') :
    ((Attempt.clean x).andThen f).Counts (total + k) weight' := by
  have counts : x.Counts (total + k) fun _ => k := h.counts fun _ => rfl
  exact (Counts.clean counts).andThen next

end Attempt

@[inherit_doc Balanced]
def Sequence.Counts (total : Nat) (s : Sequence Stmt n) : Prop :=
  Balanced total s.log (keywordsEach s.items) s.rest

theorem Sequence.Counts.andThen {weight : α → Nat} {k : Nat} {s : Sequence Stmt n}
    {rule : List Stmt → (rest : List Token) → Parsed α (rest.length + 1)} (h : s.Counts total)
    (next : (rule s.items s.rest).Counts (keywordCount s.rest + (keywordsEach s.items + k)) weight) :
    (s.andThen rule).Counts (total + k) weight := by
  obtain ⟨bounded, all⟩ := Balanced.add h k
  simp only [Attempt.Counts, Sequence.andThen]
  cases result : rule s.items s.rest with
  | ok value rest _ =>
      rw [result] at next
      exact ⟨Nat.le_trans (Nat.le_of_eq next) bounded, fun none_lost => next.trans (all none_lost)⟩
  | error fault rest _ =>
      rw [result] at next
      exact Nat.le_trans next bounded

section Rules

variable {rule : UpTo Attempt Stmt n}
  (counts : ∀ ts h, (rule ts h).Counts (keywordCount ts) Stmt.keywords)
include counts

/-- Getting over a fault loses keywords at most. -/
theorem counts_sequence (closes : Token → Bool) (ts : List Token) (h : ts.length ≤ n) :
    (sequence rule closes ts h).Counts (keywordCount ts) := by
  fun_induction sequence rule closes ts h with
  | case1 => exact ⟨Nat.le_refl _, fun _ => rfl⟩
  | case2 t ts h closing => exact ⟨Nat.le_refl _, fun _ => rfl⟩
  | case3 t ts h going first item rest shorter result next _ ih =>
      have before : first.Counts (keywordCount (t :: ts)) Stmt.keywords := counts (t :: ts) h
      rw [Attempt.Counts, result] at before
      exact before.trans (ih.add item.keywords)
  | case4 t ts h going first fault rest bounded result next _ ih =>
      have before : first.Counts (keywordCount (t :: ts)) Stmt.keywords := counts (t :: ts) h
      rw [Attempt.Counts, result] at before
      have lost := Nat.le_trans (keywordCount_synchronize_le rest) before
      refine ⟨Nat.le_trans ih.1 lost, fun none_lost => ?_⟩
      simp at none_lost

theorem counts_blockBody (ts : List Token) (h : ts.length ≤ n) :
    (blockBody rule ts h).Counts (keywordCount ts) keywordsEach := by
  refine Sequence.Counts.andThen (k := 0) (counts_sequence counts closesBody ts h) ?_
  have closing : ∀ t ∈ (sequence rule closesBody ts h).rest.head?, closesBody t := sequence_rest h
  cases left : (sequence rule closesBody ts h).rest with
  | nil => exact rfl
  | cons t rest =>
      have brace : t.kind = .rightBrace := by simpa [closesBody, left] using closing
      rw [keywordCount_of_plain (by simp [startsStatement, brace])]
      exact rfl

theorem counts_function (modifiers : Modifiers) (ts : List Token) (h : ts.length ≤ n) :
    (function rule modifiers ts h).Counts (keywordCount ts + 1) Stmt.keywords :=
  Attempt.counts_plain_andThen (plain_functionHead ts) fun _ rest _ =>
    Attempt.Counts.map ((counts_blockBody counts rest _).add 1)

theorem counts_modified (modifiers : Modifiers) (ts : List Token) (h : ts.length ≤ n) :
    (modified rule modifiers ts h).Counts (keywordCount ts) Stmt.keywords := by
  cases ts with
  | nil => exact .clean (counts_property modifiers [])
  | cons t ts =>
      rw [modified]
      split
      · rename_i keyword
        rw [keywordCount_of_keyword (by simp [startsStatement, keyword])]
        exact (counts_function counts modifiers ts _).succ
      · exact .clean (counts_property modifiers (t :: ts))

theorem counts_classMember (ts : List Token) (h : ts.length ≤ n) :
    (classMember rule ts h).Counts (keywordCount ts) Stmt.keywords := by
  cases ts with
  | nil => exact counts_modified counts {} [] h
  | cons t ts =>
      simp only [classMember]
      split
      · rename_i modifiers found
        have plain : startsStatement t = false := by
          unfold modifiers? at found
          unfold startsStatement
          split at found
          case h_4 => cases found
          all_goals
            rename_i kind
            rw [kind]
        rw [keywordCount_of_plain plain]
        exact (counts_modified counts modifiers ts _).succ
      · exact counts_modified counts {} (t :: ts) h

theorem counts_classDeclaration (isStatic : Bool) (pos : Position) (ts : List Token)
    (h : ts.length ≤ n) :
    (classDeclaration rule isStatic pos ts h).Counts (keywordCount ts + 1) Stmt.keywords := by
  refine Attempt.counts_plain_andThen (plain_classHead ts) fun name rest shorter => ?_
  refine (counts_sequence (counts_classMember counts) closesBody rest _).andThen ?_
  exact Counts.succ (Counts.map ((plain_expect (by decide) _).counts fun _ => rfl))

end Rules

section Nested

variable {nested : Below Attempt Stmt n}
  (counts : ∀ ts h, (nested ts h).Counts (keywordCount ts) Stmt.keywords)
include counts

theorem counts_alternative (ts : List Token) (h : ts.length ≤ n) :
    (alternative nested ts h).Counts (keywordCount ts) keywordsOption := by
  cases ts with
  | nil => exact ⟨Nat.le_refl _, fun _ => rfl⟩
  | cons t ts =>
      rw [alternative]
      split
      · rename_i keyword
        rw [keywordCount_of_plain (by simp [startsStatement, keyword])]
        exact Attempt.Counts.succ (Attempt.Counts.succ (Attempt.Counts.map (counts ts _)))
      · exact ⟨Nat.le_refl _, fun _ => rfl⟩

theorem counts_branch (pos : Position) (ts : List Token) (h : ts.length ≤ n) :
    (branch nested pos ts h).Counts (keywordCount ts + 1) Stmt.keywords := by
  refine Attempt.counts_plain_andThen (plain_condition (by decide) (by decide) ts)
    fun test rest _ => Attempt.Counts.succ ?_
  refine ((counts rest _).add 1).andThen fun consequent rest _ => ?_
  exact Attempt.Counts.map ((counts_alternative counts rest _).add _)

theorem counts_whileLoop (pos : Position) (ts : List Token) (h : ts.length ≤ n) :
    (whileLoop nested pos ts h).Counts (keywordCount ts + 1) Stmt.keywords := by
  refine Attempt.counts_plain_andThen (plain_condition (by decide) (by decide) ts)
    fun test rest _ => Attempt.Counts.succ ?_
  exact Attempt.Counts.map ((counts rest _).add 1)

theorem counts_forLoop (pos : Position) (ts : List Token) (h : ts.length ≤ n) :
    (forLoop nested pos ts h).Counts (keywordCount ts + 1) Stmt.keywords := by
  refine Attempt.Counts.andThen (.clean ((counts_loopHead ts).add 1))
    fun head rest _ => Attempt.Counts.succ ?_
  exact Attempt.Counts.map ((counts rest _).add _)

theorem counts_statementFrom (t : Token) (ts : List Token) (h : ts.length < n) :
    (statementFrom nested t ts h).Counts (keywordCount (t :: ts)) Stmt.keywords := by
  unfold statementFrom
  dsimp only
  split
  · rename_i keyword
    rw [keywordCount_of_keyword (by simp [startsStatement, keyword])]
    exact .clean (counts_varDeclaration t.pos ts).succ
  · rename_i keyword
    rw [keywordCount_of_plain (by simp [startsStatement, keyword])]
    refine Attempt.Counts.succ (Attempt.Counts.andThen (.clean (counts_expectClass ts))
      fun _ rest _ => Attempt.Counts.succ ?_)
    exact counts_classDeclaration (fun ts _ => counts ts _) true t.pos rest _
  · rename_i keyword
    rw [keywordCount_of_keyword (by simp [startsStatement, keyword])]
    exact (counts_classDeclaration (fun ts _ => counts ts _) false t.pos ts _).succ
  · rename_i keyword
    rw [keywordCount_of_keyword (by simp [startsStatement, keyword])]
    exact (counts_function (fun ts _ => counts ts _) {} ts _).succ
  · rename_i keyword
    rw [keywordCount_of_keyword (by simp [startsStatement, keyword])]
    exact .clean (counts_returnStatement t.pos ts)
  · rename_i keyword
    rw [keywordCount_of_keyword (by simp [startsStatement, keyword])]
    exact (counts_branch counts t.pos ts _).succ
  · rename_i keyword
    rw [keywordCount_of_keyword (by simp [startsStatement, keyword])]
    exact (counts_whileLoop counts t.pos ts _).succ
  · rename_i keyword
    rw [keywordCount_of_keyword (by simp [startsStatement, keyword])]
    exact (counts_forLoop counts t.pos ts _).succ
  · rename_i brace
    rw [keywordCount_of_plain (by simp [startsStatement, brace])]
    exact Attempt.Counts.map (counts_blockBody (fun ts _ => counts ts _) ts _)
  · exact .clean (counts_expressionStatement (t :: ts))

end Nested

theorem counts_statement (ts : List Token) :
    (statement ts).Counts (keywordCount ts) Stmt.keywords := by
  cases ts with
  | nil =>
      rw [statement]
      exact .clean (counts_expressionStatement [])
  | cons t ts =>
      rw [statement]
      exact counts_statementFrom (fun shorter _ => counts_statement shorter) t ts _
termination_by ts.length

/-- The statements of a script have no more keywords than its tokens, and as many if there was no
fault. -/
theorem counts_topLevel (ts : List Token) : (topLevel ts).Counts (keywordCount ts) :=
  counts_sequence (fun ts _ => counts_statement ts) _ ts _

end Parse

end Scriptlet
