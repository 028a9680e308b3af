import Scriptlet.Proofs.Parse.Semicolons

/-! # Statements in front of other tokens

A reading without faults that ends with a semicolon or a closing brace is the same in front of more
tokens, unless it closed a block only because the tokens came to an end. That shows in the number of
braces: a reading that leaves nothing, of tokens with as many opening braces as closing ones, closed
all of its blocks by braces. -/

namespace Scriptlet.Parse

variable {α β : Type} {m n : Nat} {ts tail : List Token} {t : Token}

/-! ## Braces -/

/-- How many more braces are opened than closed. -/
def depth (ts : List Token) : Int :=
  ts.countP (·.kind = .leftBrace) - ts.countP (·.kind = .rightBrace)

@[simp] theorem depth_nil : depth [] = 0 := rfl

theorem depth_append (front back : List Token) :
    depth (front ++ back) = depth front + depth back := by
  simp only [depth, List.countP_append]
  omega

theorem depth_of_opening (brace : t.kind = .leftBrace) : depth (t :: ts) = depth ts + 1 := by
  simp only [depth, List.countP_cons, brace]
  simp
  omega

theorem depth_of_closing (brace : t.kind = .rightBrace) : depth (t :: ts) = depth ts - 1 := by
  simp only [depth, List.countP_cons, brace]
  simp
  omega

theorem depth_of_plain (left : t.kind ≠ .leftBrace) (right : t.kind ≠ .rightBrace) :
    depth (t :: ts) = depth ts := by
  simp [depth, left, right]

theorem depth_of_inExpression (inside : ∀ t ∈ ts, t.kind.inExpression) : depth ts = 0 := by
  induction ts with
  | nil => rfl
  | cons t ts ih =>
      obtain ⟨first, rest⟩ := List.forall_mem_cons.mp inside
      have brace {kind} (h : kind.inExpression = false) : t.kind ≠ kind := by
        rintro rfl
        rw [first] at h
        cases h
      rw [depth_of_plain (brace rfl) (brace rfl)]
      exact ih rest

/-- The tokens are none, or the last one is a semicolon or a closing brace. -/
def Closing (ts : List Token) : Prop :=
  ∀ t ∈ ts.getLast?, t.kind = .semicolon ∨ t.kind = .rightBrace

theorem Closing.suffix {rest : List Token} (h : Closing ts) (suffix : rest <:+ ts) :
    Closing rest := by
  obtain ⟨front, rfl⟩ := suffix
  intro t last
  refine h t ?_
  rw [Option.mem_def] at last ⊢
  rw [List.getLast?_append, last]
  rfl

theorem Closing.ne_nil {t : Token} (h : Closing (t :: ts)) (semicolon : t.kind ≠ .semicolon)
    (brace : t.kind ≠ .rightBrace) : ts ≠ [] := by
  rintro rfl
  exact (h t rfl).elim semicolon brace

/-! ## Rules that stop at a fault -/

/-- What is read without a fault from the tokens `ts` is read from more tokens as well, if tokens
are left or the rule is `sure`, which makes it need tokens. Reading closes `k` more braces than it
opens. -/
structure Parsed.Extends (sure : Bool) (k : Int) (ts tail : List Token) (x : Parsed α m)
    (y : Parsed α n) : Prop where
  room : m + tail.length ≤ n
  reads : Closing ts → ∀ value rest, x.read? = some (value, rest) →
    rest <:+ ts ∧ depth rest = depth ts + k ∧ (sure → ts ≠ []) ∧
      (sure ∨ rest ≠ [] → y.read? = some (value, rest ++ tail))

namespace Parsed.Extends

variable {sure sure' : Bool} {k : Int} {x : Parsed α m} {y : Parsed α n}

theorem done (value : α) (ts tail : List Token) :
    Extends false 0 ts tail (.done value ts) (.done value (ts ++ tail)) where
  room := by
    rw [List.length_append]
    omega
  reads _ v rest read := by
    obtain ⟨rfl, rfl⟩ := eq_of_read?_done read
    exact ⟨List.suffix_rfl, by omega, by simp, fun _ => rfl⟩

/-- One token. -/
theorem take (value : α) (plain : depth (t :: ts) = depth ts) (tail : List Token) :
    Extends true 0 (t :: ts) tail (.take value t ts) (.take value t (ts ++ tail)) where
  room := by
    rw [List.length_cons, List.length_cons, List.length_append]
    omega
  reads _ v rest read := by
    obtain ⟨rfl, rfl⟩ := eq_of_read?_done read
    exact ⟨List.suffix_cons t rest, by omega, by simp, fun _ => rfl⟩

theorem of_none (failed : x.read? = none) (room : m + tail.length ≤ n) :
    Extends sure k ts tail x y where
  room := room
  reads _ v rest read := by
    rw [failed] at read
    cases read

/-- No tokens are left of none, so that nothing is said about the answer to more. -/
theorem nil (x : Parsed α 1) (y : Parsed α (tail.length + 1)) : Extends false 0 [] tail x y where
  room := by omega
  reads _ v rest read := by
    have shorter := length_lt_of_read? read
    obtain rfl : rest = [] := List.length_eq_zero_iff.mp (Nat.lt_one_iff.mp shorter)
    exact ⟨List.suffix_rfl, rfl, by simp, by simp⟩

theorem unsure (h : Extends true k ts tail x y) : Extends false k ts tail x y where
  room := h.room
  reads closing value rest read := by
    obtain ⟨suffix, depths, -, more⟩ := h.reads closing value rest read
    exact ⟨suffix, depths, by simp, fun _ => more (.inl rfl)⟩

theorem succ (h : Extends sure k ts tail x y) : Extends sure k ts tail x.succ y.succ where
  room := by
    have room := h.room
    omega
  reads closing value rest read := by
    rw [read?_succ] at read ⊢
    exact h.reads closing value rest read

theorem map (h : Extends sure k ts tail x y) (f : α → β) :
    Extends sure k ts tail (x.map f) (y.map f) where
  room := h.room
  reads closing value rest read := by
    obtain ⟨a, first, rfl⟩ := (read?_map f x).mp read
    obtain ⟨suffix, depths, needs, more⟩ := h.reads closing a rest first
    exact ⟨suffix, depths, needs, fun left => (read?_map f y).mpr ⟨a, more left, rfl⟩⟩

/-- One token before the others. -/
theorem cons (h : Extends sure k ts tail x y) (plain : depth (t :: ts) = depth ts) :
    Extends sure k (t :: ts) tail x y where
  room := h.room
  reads closing value rest read := by
    have inner := closing.suffix (List.suffix_cons t ts)
    obtain ⟨suffix, depths, -, more⟩ := h.reads inner value rest read
    exact ⟨suffix.trans (List.suffix_cons t ts), plain ▸ depths, by simp, more⟩

theorem andThen {f : α → (rest : List Token) → rest.length < m → Parsed β (rest.length + 1)}
    {g : α → (rest : List Token) → rest.length < n → Parsed β (rest.length + 1)}
    (h : Extends sure 0 ts tail x y)
    (next : ∀ value rest shorter shorter',
      Extends sure' k rest tail (f value rest shorter) (g value (rest ++ tail) shorter')) :
    Extends sure' k ts tail (x.andThen f) (y.andThen g) where
  room := h.room
  reads closing value rest read := by
    obtain ⟨a, mid, shorter, first, second⟩ := (read?_andThen x f).mp read
    obtain ⟨suffix, depths, -, more⟩ := h.reads closing a mid first
    have shorter' : (mid ++ tail).length < n := by
      have room := h.room
      rw [List.length_append]
      omega
    obtain ⟨suffix', depths', needs, more'⟩ :=
      (next a mid shorter shorter').reads (closing.suffix suffix) value rest second
    refine ⟨suffix'.trans suffix, by omega, fun isSure => ?_, fun left => ?_⟩
    · rintro rfl
      exact needs isSure (List.suffix_nil.mp suffix)
    · have remains : mid ≠ [] := by
        rcases left with isSure | remains
        · exact needs isSure
        · rintro rfl
          exact remains (List.suffix_nil.mp suffix')
      exact (read?_andThen y g).mpr ⟨a, mid ++ tail, shorter', more (.inr remains), more' left⟩

end Parsed.Extends

theorem extends_expect {what : Expectation} {k : Int}
    (braces : ∀ (t : Token) (ts : List Token), t.kind = what.kind → depth ts = depth (t :: ts) + k)
    (ts tail : List Token) :
    Parsed.Extends true k ts tail (expect what ts) (expect what (ts ++ tail)) where
  room := by rw [List.length_append]
  reads _ t rest read := by
    obtain ⟨rfl, kind⟩ := (read?_expect what ts).mp read
    refine ⟨List.suffix_cons t rest, braces t rest kind, by simp, fun _ => ?_⟩
    exact (read?_expect what _).mpr ⟨rfl, kind⟩

/-- A token that is no brace. -/
theorem extends_plain {what : Expectation} (left : what.kind ≠ .leftBrace)
    (right : what.kind ≠ .rightBrace) (ts tail : List Token) :
    Parsed.Extends true 0 ts tail (expect what ts) (expect what (ts ++ tail)) :=
  extends_expect (fun t ts kind => by
    rw [depth_of_plain (kind ▸ left) (kind ▸ right), Int.add_zero]) ts tail

theorem extends_opening {what : Expectation} (opening : what.kind = .leftBrace)
    (ts tail : List Token) :
    Parsed.Extends true (-1) ts tail (expect what ts) (expect what (ts ++ tail)) :=
  extends_expect (fun t ts kind => by
    rw [depth_of_opening (kind.trans opening)]
    omega) ts tail

/-! ## Expressions -/

/-- An expression does not take the last token, which stands in none. -/
theorem read?_expression_append (tail : List Token) (closing : Closing ts) {e : Expr}
    {rest : List Token} (read : (expression ts).read? = some (e, rest)) :
    rest <:+ ts ∧ rest ≠ [] ∧ depth rest = depth ts ∧
      (expression (ts ++ tail)).read? = some (e, rest ++ tail) := by
  obtain ⟨front, back, rfl, inside, bars⟩ : ∃ front back, ts = front ++ back ∧
      (∀ t ∈ front, t.kind.inExpression) ∧ Barred back :=
    ⟨_, _, List.takeWhile_append_dropWhile.symm, List.all_eq_true.mp List.all_takeWhile,
      barred_dropWhile ts⟩
  have remains : back ≠ [] := by
    rintro rfl
    rw [List.append_nil] at closing read
    obtain ⟨t, last⟩ : ∃ t, front.getLast? = some t := by
      obtain ⟨t, first, -⟩ := (expression_sound read).starts
      exact Option.isSome_iff_exists.mp (by cases front <;> simp at first ⊢)
    have inner := inside t (List.mem_of_getLast? last)
    rcases closing t last with kind | kind <;> rw [kind] at inner <;> cases inner
  have bars' : Barred (back ++ tail) := by
    cases back with
    | nil => exact absurd rfl remains
    | cons t back => exact bars
  obtain ⟨left, suffix, alone, rfl⟩ := (follows_expression bars front).read?_iff.mp read
  have whole : left ++ back <:+ front ++ back := by
    obtain ⟨before, rfl⟩ := suffix
    exact ⟨before, by rw [List.append_assoc]⟩
  refine ⟨whole, by simp [remains], ?_, ?_⟩
  · rw [depth_append, depth_append, depth_of_inExpression inside,
      depth_of_inExpression fun t mem => inside t (suffix.subset mem)]
  · rw [List.append_assoc, List.append_assoc]
    exact (follows_expression bars' front).read?_iff.mpr ⟨left, suffix, alone, rfl⟩

theorem extends_expression (ts tail : List Token) :
    Parsed.Extends true 0 ts tail (expression ts) (expression (ts ++ tail)) where
  room := by rw [List.length_append]
  reads closing e rest read := by
    obtain ⟨suffix, remains, depths, more⟩ := read?_expression_append tail closing read
    refine ⟨suffix, by omega, fun _ => ?_, fun _ => more⟩
    rintro rfl
    exact remains (List.suffix_nil.mp suffix)

/-! ## Parts of statements -/

theorem extends_expressionStatement (ts tail : List Token) :
    Parsed.Extends true 0 ts tail (expressionStatement ts) (expressionStatement (ts ++ tail)) :=
  (extends_expression ts tail).andThen fun _ rest _ _ =>
    ((extends_plain (by decide) (by decide) rest tail).map _).succ

theorem extends_initializer (ts tail : List Token) :
    Parsed.Extends false 0 ts tail (initializer ts) (initializer (ts ++ tail)) := by
  cases ts with
  | nil => exact .nil _ _
  | cons t ts =>
      rw [List.cons_append, initializer, initializer]
      split
      · rename_i equal
        have plain : depth (t :: ts) = depth ts :=
          depth_of_plain (by simp [equal]) (by simp [equal])
        exact (((extends_expression ts tail).map some).succ.succ.cons plain).unsure
      · exact .done none (t :: ts) tail

theorem extends_varDeclaration (pos : Position) (ts tail : List Token) :
    Parsed.Extends true 0 ts tail (varDeclaration pos ts) (varDeclaration pos (ts ++ tail)) :=
  (extends_plain (by decide) (by decide) ts tail).andThen fun _ rest _ _ =>
    (extends_initializer rest tail).andThen fun _ rest _ _ =>
      ((extends_plain (by decide) (by decide) rest tail).map _).succ

theorem extends_property (modifiers : Modifiers) (ts tail : List Token) :
    Parsed.Extends true 0 ts tail (property modifiers ts) (property modifiers (ts ++ tail)) :=
  (extends_plain (by decide) (by decide) ts tail).andThen fun _ rest _ _ =>
    (extends_initializer rest tail).andThen fun _ rest _ _ =>
      ((extends_plain (by decide) (by decide) rest tail).map _).succ

theorem extends_parameterNames (ts tail : List Token) :
    Parsed.Extends false 0 ts tail (parameterNames ts) (parameterNames (ts ++ tail)) := by
  rw [parameterNames, parameterNames]
  refine (extends_plain (by decide) (by decide) ts tail).andThen fun name rest shorter _ => ?_
  cases rest with
  | nil => exact .nil _ _
  | cons t rest =>
      simp only [List.cons_append]
      split
      · rename_i comma
        have plain : depth (t :: rest) = depth rest :=
          depth_of_plain (by simp [comma]) (by simp [comma])
        exact (((extends_parameterNames rest tail).map _).succ.succ.cons plain)
      · exact .done [name.lexeme] (t :: rest) tail
termination_by ts.length
decreasing_by exact tail_lt_of_lt shorter

theorem startsWith_append_of_ne_nil (nonempty : ts ≠ []) (kind : TokenKind) (tail : List Token) :
    startsWith kind (ts ++ tail) = startsWith kind ts := by
  cases ts with
  | nil => exact absurd rfl nonempty
  | cons t ts => rfl

theorem extends_parameters (ts tail : List Token) :
    Parsed.Extends false 0 ts tail (parameters ts) (parameters (ts ++ tail)) := by
  cases ts with
  | nil => exact .nil _ _
  | cons t ts =>
      unfold parameters
      rw [startsWith_append_of_ne_nil (by simp)]
      split
      · exact .done [] (t :: ts) tail
      · exact (extends_parameterNames (t :: ts) tail).succ

theorem extends_functionHead (ts tail : List Token) :
    Parsed.Extends true (-1) ts tail (functionHead ts) (functionHead (ts ++ tail)) := by
  refine (extends_plain (by decide) (by decide) ts tail).andThen fun name rest _ _ => .succ ?_
  refine (extends_plain (by decide) (by decide) rest tail).andThen fun _ rest _ _ => ?_
  refine (extends_parameters rest tail).andThen fun params rest _ _ => .succ ?_
  refine (extends_plain (by decide) (by decide) rest tail).andThen fun _ rest _ _ => .succ ?_
  exact (extends_opening rfl rest tail).map _

theorem extends_classHead (ts tail : List Token) :
    Parsed.Extends true (-1) ts tail (classHead ts) (classHead (ts ++ tail)) :=
  (extends_plain (by decide) (by decide) ts tail).andThen fun _ rest _ _ =>
    ((extends_opening rfl rest tail).map _).succ

theorem extends_condition {opening closing : Expectation} (ho : opening.kind = .leftParen)
    (hc : closing.kind = .rightParen) (ts tail : List Token) :
    Parsed.Extends true 0 ts tail (condition opening closing ts)
      (condition opening closing (ts ++ tail)) := by
  refine (extends_plain (by simp [ho]) (by simp [ho]) ts tail).andThen fun _ rest _ _ => .succ ?_
  refine (extends_expression rest tail).andThen fun e rest _ _ => .succ ?_
  exact (extends_plain (by simp [hc]) (by simp [hc]) rest tail).map _

theorem extends_loopStart (ts tail : List Token) :
    Parsed.Extends true 0 ts tail (loopStart ts) (loopStart (ts ++ tail)) := by
  cases ts with
  | nil =>
      refine .of_none (Option.eq_none_iff_forall_ne_some.mpr ?_) (by simp)
      rintro ⟨start, rest⟩ read
      have failed : (expressionStatement []).read? = none :=
        read?_expressionStatement_of_loose (by simp)
      rw [loopStart, Parsed.read?_map, failed] at read
      simp at read
  | cons t ts =>
      rw [List.cons_append, loopStart, loopStart]
      split
      · rename_i semicolon
        exact .take _ (depth_of_plain (by simp [semicolon]) (by simp [semicolon])) tail
      · split
        · rename_i keyword
          have plain : depth (t :: ts) = depth ts :=
            depth_of_plain (by simp [keyword]) (by simp [keyword])
          exact ((extends_varDeclaration t.pos ts tail).map some).succ.cons plain
        · exact (extends_expressionStatement (t :: ts) tail).map some

theorem extends_loopClause (closing : TokenKind) (ts tail : List Token) :
    Parsed.Extends false 0 ts tail (loopClause closing ts) (loopClause closing (ts ++ tail)) := by
  cases ts with
  | nil => exact .nil _ _
  | cons t ts =>
      unfold loopClause
      rw [startsWith_append_of_ne_nil (by simp)]
      split
      · exact .done none (t :: ts) tail
      · exact ((extends_expression (t :: ts) tail).map some).succ.unsure

theorem extends_loopHead (ts tail : List Token) :
    Parsed.Extends true 0 ts tail (loopHead ts) (loopHead (ts ++ tail)) := by
  refine (extends_plain (by decide) (by decide) ts tail).andThen fun _ rest _ _ => .succ ?_
  refine (extends_loopStart rest tail).andThen fun start rest _ _ => ?_
  refine (extends_loopClause _ rest tail).andThen fun test rest _ _ => .succ ?_
  refine (extends_plain (by decide) (by decide) rest tail).andThen fun _ rest _ _ => ?_
  refine (extends_loopClause _ rest tail).andThen fun step rest _ _ => .succ ?_
  exact (extends_plain (by decide) (by decide) rest tail).map _

/-- A value does not take the last token. -/
theorem read?_returnValue_append (tail : List Token) (closing : Closing ts) (nonempty : ts ≠ [])
    {value : Option Expr} {rest : List Token} (read : (returnValue ts).read? = some (value, rest)) :
    rest <:+ ts ∧ rest ≠ [] ∧ depth rest = depth ts ∧
      (returnValue (ts ++ tail)).read? = some (value, rest ++ tail) := by
  unfold returnValue at read ⊢
  have same : (ts ++ tail).isEmpty = ts.isEmpty := by
    cases ts with
    | nil => exact absurd rfl nonempty
    | cons t ts => rfl
  rw [same, startsWith_append_of_ne_nil nonempty, startsWith_append_of_ne_nil nonempty]
  split at read
  · rename_i ends
    obtain ⟨rfl, rfl⟩ := Parsed.eq_of_read?_done read
    rw [if_pos ends]
    exact ⟨List.suffix_rfl, nonempty, rfl, rfl⟩
  · rename_i going
    rw [Parsed.read?_succ, Parsed.read?_map] at read
    obtain ⟨e, read, rfl⟩ := read
    obtain ⟨suffix, remains, depths, more⟩ := read?_expression_append tail closing read
    rw [if_neg going, Parsed.read?_succ, Parsed.read?_map]
    exact ⟨suffix, remains, depths, e, more, rfl⟩

theorem read?_returnEnd_append (tail : List Token) (nonempty : ts ≠ []) {rest : List Token}
    (read : (returnEnd ts).read? = some ((), rest)) :
    rest <:+ ts ∧ depth rest = depth ts ∧
      (returnEnd (ts ++ tail)).read? = some ((), rest ++ tail) := by
  cases ts with
  | nil => exact absurd rfl nonempty
  | cons t ts =>
      rw [List.cons_append, returnEnd]
      rw [returnEnd] at read
      split at read
      · rename_i semicolon
        obtain ⟨-, rfl⟩ := Parsed.eq_of_read?_done read
        rw [if_pos semicolon]
        exact ⟨List.suffix_cons t rest,
          (depth_of_plain (by simp [semicolon]) (by simp [semicolon])).symm, rfl⟩
      · rename_i other
        split at read
        · rename_i brace
          obtain ⟨-, rfl⟩ := Parsed.eq_of_read?_done read
          rw [if_neg other, if_pos brace]
          exact ⟨List.suffix_rfl, rfl, rfl⟩
        · cases read

theorem extends_returnStatement (keyword : t.kind = .kwReturn) (ts tail : List Token) :
    Parsed.Extends true 0 (t :: ts) tail (returnStatement t.pos ts)
      (returnStatement t.pos (ts ++ tail)) where
  room := by
    rw [List.length_append]
    omega
  reads closing s rest read := by
    have nonempty := closing.ne_nil (by simp [keyword]) (by simp [keyword])
    have suffix := List.suffix_cons t ts
    have plain : depth (t :: ts) = depth ts :=
      depth_of_plain (by simp [keyword]) (by simp [keyword])
    obtain ⟨value, mid, -, first, second⟩ := (Parsed.read?_andThen _ _).mp read
    obtain ⟨_, ended, rfl⟩ := (Parsed.read?_map _ _).mp second
    obtain ⟨suffix', remains, depths, more⟩ :=
      read?_returnValue_append tail (closing.suffix suffix) nonempty first
    obtain ⟨suffix'', depths', more'⟩ := read?_returnEnd_append tail remains ended
    refine ⟨suffix''.trans (suffix'.trans suffix), by omega, by simp, fun _ => ?_⟩
    refine (Parsed.read?_andThen _ _).mpr
      ⟨value, mid ++ tail, Parsed.length_lt_of_read? more, more, ?_⟩
    exact (Parsed.read?_map _ _).mpr ⟨(), more', rfl⟩

/-! ## Rules that get over faults -/

/-- What is read from the tokens `ts` with no fault got over is read from more tokens as well, if
tokens are left or as many braces were opened as closed. Reading closes `k` more braces than it
opens, or fewer where the tokens end. -/
structure Attempt.Extends (k : Int) (ts tail : List Token) (a : Attempt α m) (b : Attempt α n) :
    Prop where
  room : m + tail.length ≤ n
  reads : Closing ts → ∀ value rest, a.read? = some (value, rest) →
    rest <:+ ts ∧ depth rest ≤ depth ts + k ∧
      ((rest = [] → depth ts + k = 0) → b.read? = some (value, rest ++ tail))

namespace Attempt.Extends

variable {k k' : Int} {a : Attempt α m} {b : Attempt α n}

theorem of_none (failed : a.read? = none) (room : m + tail.length ≤ n) :
    Extends k ts tail a b where
  room := room
  reads _ v rest read := by
    rw [failed] at read
    cases read

theorem done (value : α) (ts tail : List Token) :
    Extends 0 ts tail (.clean (.done value ts)) (.clean (.done value (ts ++ tail))) where
  room := by
    rw [List.length_append]
    omega
  reads _ v rest read := by
    rw [read?_clean] at read ⊢
    obtain ⟨rfl, rfl⟩ := Parsed.eq_of_read?_done read
    exact ⟨List.suffix_rfl, by omega, fun _ => rfl⟩

theorem clean {x : Parsed α m} {y : Parsed α n} (h : x.Extends true k ts tail y) :
    Extends k ts tail (clean x) (clean y) where
  room := h.room
  reads closing value rest read := by
    rw [read?_clean] at read ⊢
    obtain ⟨suffix, depths, -, more⟩ := h.reads closing value rest read
    exact ⟨suffix, by omega, fun _ => more (.inl rfl)⟩

theorem succ (h : Extends k ts tail a b) : Extends k ts tail a.succ b.succ where
  room := by
    have room := h.room
    omega
  reads closing value rest read := by
    rw [read?_succ] at read ⊢
    exact h.reads closing value rest read

theorem map (h : Extends k ts tail a b) (f : α → β) :
    Extends k ts tail (a.map f) (b.map f) where
  room := h.room
  reads closing value rest read := by
    obtain ⟨v, first, rfl⟩ := (read?_map f a).mp read
    obtain ⟨suffix, depths, more⟩ := h.reads closing v rest first
    exact ⟨suffix, depths, fun ends => (read?_map f b).mpr ⟨v, more ends, rfl⟩⟩

/-- One token before the others. -/
theorem cons (h : Extends k ts tail a b) (opens : depth (t :: ts) + k' = depth ts + k) :
    Extends k' (t :: ts) tail a b where
  room := h.room
  reads closing value rest read := by
    have inner := closing.suffix (List.suffix_cons t ts)
    obtain ⟨suffix, depths, more⟩ := h.reads inner value rest read
    refine ⟨suffix.trans (List.suffix_cons t ts), by omega, fun ends => more fun none_left => ?_⟩
    rw [← opens, ends none_left]

/-- Where the tokens end, each of the two rules has closed as many braces as it could. -/
theorem andThen {f : α → (rest : List Token) → rest.length < m → Attempt β (rest.length + 1)}
    {g : α → (rest : List Token) → rest.length < n → Attempt β (rest.length + 1)}
    (h : Extends k ts tail a b)
    (next : ∀ value rest shorter shorter',
      Extends k' rest tail (f value rest shorter) (g value (rest ++ tail) shorter'))
    (closed : k + k' = 0) : Extends 0 ts tail (a.andThen f) (b.andThen g) where
  room := h.room
  reads closing value rest read := by
    obtain ⟨v, mid, shorter, first, second⟩ := (read?_andThen a f).mp read
    obtain ⟨suffix, depths, more⟩ := h.reads closing v mid first
    have shorter' : (mid ++ tail).length < n := by
      have room := h.room
      rw [List.length_append]
      omega
    obtain ⟨suffix', depths', more'⟩ :=
      (next v mid shorter shorter').reads (closing.suffix suffix) value rest second
    refine ⟨suffix'.trans suffix, by omega, fun ends => ?_⟩
    have second : (g v (mid ++ tail) shorter').read? = some (value, rest ++ tail) := by
      refine more' fun none_left => ?_
      have total := ends none_left
      rw [none_left, depth_nil] at depths'
      omega
    have first : b.read? = some (v, mid ++ tail) := by
      refine more fun none_between => ?_
      obtain rfl : rest = [] := List.suffix_nil.mp (none_between ▸ suffix')
      have total := ends rfl
      rw [none_between, depth_nil] at depths depths'
      omega
    exact (read?_andThen b g).mpr ⟨v, mid ++ tail, shorter', first, second⟩

end Attempt.Extends

/-! ## Sequences -/

section Rules

variable {rule : UpTo Attempt α m} {rule' : UpTo Attempt α n} {closes : Token → Bool}
  (extends_rule : ∀ ts h h', (rule ts h).Extends 0 ts tail (rule' (ts ++ tail) h'))
include extends_rule

/-- The items of a sequence are read in front of more tokens as well, and what follows them is read
as it is alone. -/
theorem sequence_extends (ts : List Token) (h : ts.length ≤ m) (h' : (ts ++ tail).length ≤ n)
    (closing : Closing ts) {items : List α} {rest : List Token}
    (read : (sequence rule closes ts h).read? = some (items, rest)) :
    rest <:+ ts ∧ depth rest ≤ depth ts ∧ ((rest = [] → depth ts = 0) →
      ∀ (h'' : (rest ++ tail).length ≤ n) {others : List α} {left : List Token},
        (sequence rule' closes (rest ++ tail) h'').read? = some (others, left) →
          (sequence rule' closes (ts ++ tail) h').read? = some (items ++ others, left)) :=
  match ts with
  | [] => by
      obtain ⟨rfl, rfl⟩ := (read?_sequence_nil h).mp read
      exact ⟨List.suffix_rfl, Int.le_refl _, fun _ _ _ _ next => next⟩
  | t :: ts => by
      rw [read?_sequence_cons] at read
      split at read
      · obtain ⟨rfl, rfl⟩ := read
        exact ⟨List.suffix_rfl, Int.le_refl _, fun _ _ _ _ next => next⟩
      · rename_i going
        obtain ⟨item, mid, others, shorter, first, second, rfl⟩ := read
        obtain ⟨suffix, depths, more⟩ := (extends_rule (t :: ts) h h').reads closing item mid first
        have longer : (mid ++ tail).length < (t :: (ts ++ tail)).length := by
          rw [List.length_append, List.length_cons, List.length_append]
          rw [List.length_cons] at shorter
          omega
        obtain ⟨suffix', depths', more'⟩ := sequence_extends mid _
          (le_of_lt_of_le longer h') (closing.suffix suffix) second
        refine ⟨suffix'.trans suffix, by omega, fun ends h'' later left next => ?_⟩
        have first : (rule' (t :: (ts ++ tail)) h').read? = some (item, mid ++ tail) := by
          refine more fun none_between => ?_
          rw [Int.add_zero]
          exact ends (List.suffix_nil.mp (none_between ▸ suffix'))
        have second := more' (fun none_left => ?_) h'' next
        · refine (read?_sequence_cons t (ts ++ tail) h').mpr ?_
          rw [if_neg going]
          exact ⟨item, mid ++ tail, others ++ later, longer, first, second, rfl⟩
        · have total := ends none_left
          rw [none_left, depth_nil] at depths'
          omega
termination_by ts.length
decreasing_by exact shorter

/-- In front of the token that closes it, a sequence is read alike whatever comes later. -/
theorem sequence_enclosed (ts : List Token) (h : ts.length ≤ m) (h' : (ts ++ tail).length ≤ n)
    (closing : Closing ts) {items : List α} {rest : List Token}
    (read : (sequence rule closes ts h).read? = some (items, t :: rest)) :
    closes t ∧ t :: rest <:+ ts ∧ depth (t :: rest) ≤ depth ts ∧
      (sequence rule' closes (ts ++ tail) h').read? = some (items, t :: (rest ++ tail)) := by
  obtain ⟨suffix, depths, more⟩ := sequence_extends extends_rule ts h h' closing read
  have closed : closes t := by
    unfold Sequence.read? at read
    split at read
    · have left := (Prod.mk.inj (Option.some.inj read)).2
      exact sequence_rest h t (by rw [left]; rfl)
    · cases read
  have room : (t :: (rest ++ tail)).length ≤ n := by
    have shorter := suffix.length_le
    rw [List.length_append] at h'
    rw [List.length_cons] at shorter ⊢
    rw [List.length_append]
    omega
  have ended : (sequence rule' closes (t :: (rest ++ tail)) room).read? =
      some ([], t :: (rest ++ tail)) := by
    rw [read?_sequence_cons, if_pos closed]
    exact ⟨rfl, rfl⟩
  have whole := more (by simp) room ended
  rw [List.append_nil] at whole
  exact ⟨closed, suffix, depths, whole⟩

end Rules

section Statements

variable {rule : UpTo Attempt Stmt m} {rule' : UpTo Attempt Stmt n}
  (extends_rule : ∀ ts h h', (rule ts h).Extends 0 ts tail (rule' (ts ++ tail) h'))
include extends_rule

theorem extends_blockBody (ts : List Token) (h : ts.length ≤ m) (h' : (ts ++ tail).length ≤ n) :
    (blockBody rule ts h).Extends 1 ts tail (blockBody rule' (ts ++ tail) h') where
  room := by
    rw [List.length_append]
    omega
  reads closing body rest read := by
    obtain ⟨items, mid, first, ended⟩ := (Sequence.read?_andThen _ _).mp read
    cases mid with
    | nil =>
        -- The block is closed by the end, so that a brace is missing.
        obtain ⟨-, depths, -⟩ := sequence_extends extends_rule ts h h' closing first
        obtain ⟨rfl, rfl⟩ := Parsed.eq_of_read?_done ended
        rw [depth_nil] at depths
        refine ⟨List.nil_suffix, by rw [depth_nil]; omega, fun ends => ?_⟩
        have total := ends rfl
        omega
    | cons t mid =>
        obtain ⟨closed, suffix, depths, more⟩ :=
          sequence_enclosed extends_rule ts h h' closing first
        rw [depth_of_closing (by simpa [closesBody] using closed)] at depths
        obtain ⟨rfl, rfl⟩ := Parsed.eq_of_read?_done ended
        refine ⟨(List.suffix_cons t rest).trans suffix, by omega, fun _ => ?_⟩
        exact (Sequence.read?_andThen _ _).mpr ⟨body, t :: (rest ++ tail), more, rfl⟩

theorem extends_function (modifiers : Modifiers) (ts : List Token) (h : ts.length ≤ m)
    (h' : (ts ++ tail).length ≤ n) :
    (function rule modifiers ts h).Extends 0 ts tail (function rule' modifiers (ts ++ tail) h') :=
  (Attempt.Extends.clean (extends_functionHead ts tail)).andThen
    (fun _ rest _ _ => (extends_blockBody extends_rule rest _ _).map _) rfl

theorem extends_modified (modifiers : Modifiers) (ts : List Token) (h : ts.length ≤ m)
    (h' : (ts ++ tail).length ≤ n) :
    (modified rule modifiers ts h).Extends 0 ts tail
      (modified rule' modifiers (ts ++ tail) h') := by
  cases ts with
  | nil => exact .of_none rfl (by simp)
  | cons t ts =>
      simp only [List.cons_append, modified]
      split
      · rename_i keyword
        have plain : depth (t :: ts) = depth ts :=
          depth_of_plain (by simp [keyword]) (by simp [keyword])
        exact (extends_function extends_rule modifiers ts _ _).succ.cons (by rw [plain])
      · exact .clean (extends_property modifiers (t :: ts) tail)

theorem extends_classMember (ts : List Token) (h : ts.length ≤ m) (h' : (ts ++ tail).length ≤ n) :
    (classMember rule ts h).Extends 0 ts tail (classMember rule' (ts ++ tail) h') := by
  cases ts with
  | nil => exact .of_none rfl (by simp)
  | cons t ts =>
      simp only [List.cons_append, classMember]
      split
      · rename_i modifiers found
        have plain : depth (t :: ts) = depth ts := by
          unfold modifiers? at found
          split at found
          case h_4 => cases found
          all_goals
            rename_i kind
            exact depth_of_plain (by simp [kind]) (by simp [kind])
        exact (extends_modified extends_rule modifiers ts _ _).succ.cons (by rw [plain])
      · exact extends_modified extends_rule {} (t :: ts) h h'

/-- The members of a class and the brace that closes it. -/
theorem extends_members (f : List Stmt → Stmt) (ts : List Token) (h : ts.length ≤ m)
    (h' : (ts ++ tail).length ≤ n) :
    Attempt.Extends 1 ts tail
      ((sequence (classMember rule) closesBody ts h).andThen fun members rest =>
        ((expect .classEnd rest).map fun _ => f members).succ)
      ((sequence (classMember rule') closesBody (ts ++ tail) h').andThen fun members rest =>
        ((expect .classEnd rest).map fun _ => f members).succ) where
  room := by
    rw [List.length_append]
    omega
  reads closing s rest read := by
    obtain ⟨members, mid, first, ended⟩ := (Sequence.read?_andThen _ _).mp read
    rw [Parsed.read?_succ] at ended
    obtain ⟨t, found, rfl⟩ := (Parsed.read?_map _ _).mp ended
    obtain ⟨rfl, brace⟩ := (read?_expect _ _).mp found
    obtain ⟨-, suffix, depths, more⟩ :=
      sequence_enclosed (extends_classMember extends_rule) ts h h' closing first
    rw [depth_of_closing brace] at depths
    refine ⟨(List.suffix_cons t rest).trans suffix, by omega, fun _ => ?_⟩
    refine (Sequence.read?_andThen _ _).mpr ⟨members, t :: (rest ++ tail), more, ?_⟩
    rw [Parsed.read?_succ]
    exact (Parsed.read?_map _ _).mpr ⟨t, (read?_expect _ _).mpr ⟨rfl, brace⟩, rfl⟩

theorem extends_classDeclaration (isStatic : Bool) (pos : Position) (ts : List Token)
    (h : ts.length ≤ m) (h' : (ts ++ tail).length ≤ n) :
    (classDeclaration rule isStatic pos ts h).Extends 0 ts tail
      (classDeclaration rule' isStatic pos (ts ++ tail) h') :=
  (Attempt.Extends.clean (extends_classHead ts tail)).andThen
    (fun name rest _ _ => extends_members extends_rule
      (fun members => .classDecl pos name.lexeme members isStatic) rest _ _) rfl

end Statements

section Nested

variable {nested : Below Attempt Stmt m} {nested' : Below Attempt Stmt n}
  (extends_nested : ∀ ts h h', (nested ts h).Extends 0 ts tail (nested' (ts ++ tail) h'))
  (apart : startsWith .kwElse tail = false)
include extends_nested apart

theorem extends_alternative (ts : List Token) (h : ts.length ≤ m) (h' : (ts ++ tail).length ≤ n) :
    (alternative nested ts h).Extends 0 ts tail (alternative nested' (ts ++ tail) h') := by
  cases ts with
  | cons t ts =>
      simp only [List.cons_append, alternative]
      split
      · rename_i keyword
        have plain : depth (t :: ts) = depth ts :=
          depth_of_plain (by simp [keyword]) (by simp [keyword])
        exact ((extends_nested ts _ _).map some).succ.succ.cons (by rw [plain])
      · exact .done none (t :: ts) tail
  | nil =>
      cases tail with
      | nil => exact .done none [] []
      | cons t tail =>
          have other : t.kind ≠ .kwElse := by simpa [startsWith] using apart
          simp only [List.nil_append, alternative, if_neg other]
          exact .done none [] (t :: tail)

omit apart in
theorem extends_whileLoop (pos : Position) (ts : List Token) (h : ts.length ≤ m)
    (h' : (ts ++ tail).length ≤ n) :
    (whileLoop nested pos ts h).Extends 0 ts tail (whileLoop nested' pos (ts ++ tail) h') :=
  (Attempt.Extends.clean (extends_condition rfl rfl ts tail)).andThen
    (fun _ rest _ _ => ((extends_nested rest _ _).map _).succ) rfl

omit apart in
theorem extends_forLoop (pos : Position) (ts : List Token) (h : ts.length ≤ m)
    (h' : (ts ++ tail).length ≤ n) :
    (forLoop nested pos ts h).Extends 0 ts tail (forLoop nested' pos (ts ++ tail) h') :=
  (Attempt.Extends.clean (extends_loopHead ts tail)).andThen
    (fun _ rest _ _ => ((extends_nested rest _ _).map _).succ) rfl

theorem extends_branch (pos : Position) (ts : List Token) (h : ts.length ≤ m)
    (h' : (ts ++ tail).length ≤ n) :
    (branch nested pos ts h).Extends 0 ts tail (branch nested' pos (ts ++ tail) h') :=
  (Attempt.Extends.clean (extends_condition rfl rfl ts tail)).andThen
    (fun _ rest _ _ => ((extends_nested rest _ _).andThen
      (fun _ rest _ _ => (extends_alternative extends_nested apart rest _ _).map _) rfl).succ) rfl

theorem extends_statementFrom (t : Token) (ts : List Token) (h : ts.length < m)
    (h' : (ts ++ tail).length < n) :
    (statementFrom nested t ts h).Extends 0 (t :: ts) tail
      (statementFrom nested' t (ts ++ tail) h') := by
  have plain {kind : TokenKind} (keyword : t.kind = kind) (left : kind ≠ .leftBrace)
      (right : kind ≠ .rightBrace) : depth (t :: ts) = depth ts :=
    depth_of_plain (keyword ▸ left) (keyword ▸ right)
  have rule (us : List Token) (le : us.length ≤ ts.length)
      (le' : (us ++ tail).length ≤ (ts ++ tail).length) :=
    extends_nested us (Nat.lt_of_le_of_lt le h) (Nat.lt_of_le_of_lt le' h')
  unfold statementFrom
  dsimp only
  split
  · rename_i keyword
    exact .clean ((extends_varDeclaration t.pos ts tail).succ.cons (plain keyword nofun nofun))
  · rename_i keyword
    refine Attempt.Extends.cons ?_ (by rw [plain keyword nofun nofun])
    have word : Expectation.classAfterStatic.kind = .kwClass := rfl
    have first : Parsed.Extends true 0 ts tail (expect .classAfterStatic ts) _ :=
      extends_plain (word ▸ nofun) (word ▸ nofun) ts tail
    exact ((Attempt.Extends.clean first).andThen
      (fun _ rest _ _ => (extends_classDeclaration rule true t.pos rest _ _).succ) rfl).succ
  · rename_i keyword
    exact (extends_classDeclaration rule false t.pos ts _ _).succ.cons
      (by rw [plain keyword nofun nofun])
  · rename_i keyword
    exact (extends_function rule {} ts _ _).succ.cons (by rw [plain keyword nofun nofun])
  · rename_i keyword
    exact .clean (extends_returnStatement keyword ts tail)
  · rename_i keyword
    exact (extends_branch extends_nested apart t.pos ts _ _).succ.cons
      (by rw [plain keyword nofun nofun])
  · rename_i keyword
    exact (extends_whileLoop extends_nested t.pos ts _ _).succ.cons
      (by rw [plain keyword nofun nofun])
  · rename_i keyword
    exact (extends_forLoop extends_nested t.pos ts _ _).succ.cons
      (by rw [plain keyword nofun nofun])
  · rename_i brace
    exact ((extends_blockBody rule ts _ _).map _).cons (by rw [depth_of_opening brace]; omega)
  · exact .clean (extends_expressionStatement (t :: ts) tail)

end Nested

theorem extends_statement (apart : startsWith .kwElse tail = false) (ts : List Token) :
    (statement ts).Extends 0 ts tail (statement (ts ++ tail)) := by
  cases ts with
  | nil =>
      refine .of_none ?_ (by simp)
      rw [statement, Attempt.read?_clean]
      exact read?_expressionStatement_of_loose (by simp)
  | cons t ts =>
      rw [List.cons_append, statement, statement]
      exact extends_statementFrom (fun us shorter _ => extends_statement apart us) apart t ts _ _
termination_by ts.length

/-- Statements that are read without a fault and close what they open are read in front of others
as well. -/
theorem topLevel_append (closing : Closing ts) (closed : depth ts = 0)
    (apart : startsWith .kwElse tail = false) {program others : List Stmt}
    (first : (topLevel ts).read? = some (program, []))
    (second : (topLevel tail).read? = some (others, [])) :
    (topLevel (ts ++ tail)).read? = some (program ++ others, []) := by
  have rule (us : List Token) (h : us.length ≤ ts.length)
      (h' : (us ++ tail).length ≤ (ts ++ tail).length) :
      (anyStatement us h).Extends 0 us tail (anyStatement (us ++ tail) h') :=
    extends_statement apart us
  obtain ⟨-, -, more⟩ :=
    sequence_extends rule ts (length_le ts) (length_le (ts ++ tail)) closing first
  refine more (fun _ => closed) (by simp) ?_
  exact read?_sequence_closes (by simp) tail _ _ second

end Scriptlet.Parse
