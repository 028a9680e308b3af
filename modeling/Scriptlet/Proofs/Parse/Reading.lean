import Scriptlet.Parse.Program

/-! What rules read when nothing is wrong: the value and the tokens left. Each combinator of rules
is inverted once, so that no later proof opens an answer. -/

namespace Scriptlet

namespace Parse

variable {α β : Type} {n : Nat}

/-! ## Rules that stop at a fault -/

namespace Parsed

/-- The value and the tokens left, if there was no fault. -/
def read? : Parsed α n → Option (α × List Token)
  | .ok value rest _ => some (value, rest)
  | .error .. => none

@[simp] theorem read?_done (value : α) (rest : List Token) :
    (done value rest).read? = some (value, rest) := rfl

@[simp] theorem read?_take (value : α) (t : Token) (rest : List Token) :
    (take value t rest).read? = some (value, rest) := rfl

theorem eq_of_read?_done {v value : α} {rest left : List Token}
    (h : (done value rest).read? = some (v, left)) : v = value ∧ left = rest := by
  obtain ⟨rfl, rfl⟩ := Prod.mk.inj (Option.some.inj h)
  exact ⟨rfl, rfl⟩

@[simp] theorem read?_fail (fault : Fault) (rest : List Token) :
    (fail fault rest : Parsed α _).read? = none := rfl

@[simp] theorem read?_mono {m : Nat} (le : m ≤ n) (x : Parsed α m) :
    (x.mono le).read? = x.read? := by
  cases x <;> rfl

@[simp] theorem read?_succ (x : Parsed α n) : x.succ.read? = x.read? :=
  read?_mono _ x

@[simp] theorem read?_map (f : α → β) (x : Parsed α n) {b : β} {rest : List Token} :
    (x.map f).read? = some (b, rest) ↔ ∃ a, x.read? = some (a, rest) ∧ f a = b := by
  cases x <;> simp [map, read?]
  grind

/-- What two rules in a row read: the second one starts where the first one ends. -/
@[simp] theorem read?_andThen (x : Parsed α n)
    (f : α → (rest : List Token) → rest.length < n → Parsed β (rest.length + 1))
    {b : β} {rest : List Token} :
    (x.andThen f).read? = some (b, rest) ↔
      ∃ a mid, ∃ shorter : mid.length < n,
        x.read? = some (a, mid) ∧ (f a mid shorter).read? = some (b, rest) := by
  cases x with
  | error fault mid bounded => simp [andThen, read?]
  | ok a mid shorter =>
      simp only [andThen, read?_mono]
      constructor
      · intro h
        exact ⟨a, mid, shorter, rfl, h⟩
      · rintro ⟨a', mid', shorter', h, hf⟩
        obtain ⟨rfl, rfl⟩ := Prod.mk.inj (Option.some.inj h)
        exact hf

theorem length_lt_of_read? {x : Parsed α n} {a : α} {rest : List Token}
    (h : x.read? = some (a, rest)) : rest.length < n := by
  cases x with
  | error fault mid bounded => simp [read?] at h
  | ok a' mid shorter =>
      obtain ⟨rfl, rfl⟩ := Prod.mk.inj (Option.some.inj h)
      exact shorter

end Parsed

@[simp] theorem read?_expect (what : Expectation) (ts : List Token) {t : Token}
    {rest : List Token} :
    (expect what ts).read? = some (t, rest) ↔ ts = t :: rest ∧ t.kind = what.kind := by
  cases ts with
  | nil => simp [expect]
  | cons first ts =>
      by_cases h : first.kind = what.kind
      · simp only [expect, h, if_true, Parsed.read?_take, Option.some.injEq, Prod.mk.injEq,
          List.cons.injEq]
        grind
      · simp only [expect, h, if_false, Parsed.read?_fail]
        grind

/-! ## Rules that get over faults -/

namespace Attempt

/-- The value and the tokens left, if there was no fault and none was got over. -/
def read? (a : Attempt α n) : Option (α × List Token) :=
  if a.log = [] then a.result.read? else none

@[simp] theorem read?_clean (x : Parsed α n) : (clean x).read? = x.read? := by
  simp [read?, clean]

@[simp] theorem read?_succ (a : Attempt α n) : a.succ.read? = a.read? := by
  simp [read?, succ]

@[simp] theorem read?_map (f : α → β) (a : Attempt α n) {b : β} {rest : List Token} :
    (a.map f).read? = some (b, rest) ↔ ∃ v, a.read? = some (v, rest) ∧ f v = b := by
  by_cases h : a.log = [] <;> simp [read?, map, h]

@[inherit_doc Parsed.read?_andThen, simp]
theorem read?_andThen (x : Attempt α n)
    (f : α → (rest : List Token) → rest.length < n → Attempt β (rest.length + 1))
    {b : β} {rest : List Token} :
    (x.andThen f).read? = some (b, rest) ↔
      ∃ a mid, ∃ shorter : mid.length < n,
        x.read? = some (a, mid) ∧ (f a mid shorter).read? = some (b, rest) := by
  obtain ⟨log, result⟩ := x
  cases result with
  | error fault mid bounded => by_cases h : log = [] <;> simp [andThen, read?, Parsed.read?, h]
  | ok a mid shorter =>
      simp only [andThen, read?, Parsed.read?_mono, List.append_eq_nil_iff]
      by_cases h : log = []
      · simp only [h, true_and, if_true, Parsed.read?, Option.some.injEq, Prod.mk.injEq]
        constructor
        · intro hf
          exact ⟨a, mid, shorter, ⟨rfl, rfl⟩, hf⟩
        · rintro ⟨a', mid', shorter', ⟨rfl, rfl⟩, hf⟩
          exact hf
      · simp [h]

theorem length_lt_of_read? {a : Attempt α n} {v : α} {rest : List Token}
    (h : a.read? = some (v, rest)) : rest.length < n := by
  unfold read? at h
  split at h
  · exact Parsed.length_lt_of_read? h
  · cases h

end Attempt

/-! ## Sequences -/

namespace Sequence

/-- The items and the tokens left, if no fault was got over. -/
def read? (s : Sequence α n) : Option (List α × List Token) :=
  if s.log = [] then some (s.items, s.rest) else none

@[simp] theorem read?_andThen (s : Sequence α n)
    (rule : List α → (rest : List Token) → Parsed β (rest.length + 1))
    {b : β} {rest : List Token} :
    (s.andThen rule).read? = some (b, rest) ↔
      ∃ items mid, s.read? = some (items, mid) ∧ (rule items mid).read? = some (b, rest) := by
  by_cases h : s.log = []
  · constructor
    · intro hr
      simp only [andThen, Attempt.read?, h, if_true, Parsed.read?_mono] at hr
      exact ⟨s.items, s.rest, by simp [read?, h], hr⟩
    · rintro ⟨items, mid, hs, hr⟩
      simp only [read?, h, if_true, Option.some.injEq, Prod.mk.injEq] at hs
      obtain ⟨rfl, rfl⟩ := hs
      simpa only [andThen, Attempt.read?, h, if_true, Parsed.read?_mono] using hr
  · simp [read?, andThen, Attempt.read?, h]

end Sequence

section

variable {rule : UpTo Attempt α n} {closes : Token → Bool} {items : List α} {rest : List Token}

theorem read?_sequence_nil (h : ([] : List Token).length ≤ n) :
    (sequence rule closes [] h).read? = some (items, rest) ↔ items = [] ∧ rest = [] := by
  rw [sequence]
  simp [Sequence.read?, eq_comm]

/-- A sequence ends in front of a closing token; else it starts with an item. -/
theorem read?_sequence_cons (t : Token) (ts : List Token) (h : (t :: ts).length ≤ n) :
    (sequence rule closes (t :: ts) h).read? = some (items, rest) ↔
      if closes t then items = [] ∧ rest = t :: ts
      else ∃ item mid others, ∃ shorter : mid.length < (t :: ts).length,
        (rule (t :: ts) h).read? = some (item, mid) ∧
        (sequence rule closes mid (le_of_lt_of_le shorter h)).read? = some (others, rest) ∧
        items = item :: others := by
  rw [sequence]
  by_cases hc : closes t
  · simp [hc, Sequence.read?, eq_comm]
  · simp only [hc, Bool.false_eq_true, if_false]
    split
    · rename_i item mid shorter hr
      simp only [Sequence.read?, Attempt.read?, hr, List.append_eq_nil_iff]
      constructor
      · intro hs
        split at hs
        · rename_i hl
          obtain ⟨rfl, rfl⟩ := Prod.mk.inj (Option.some.inj hs)
          exact ⟨item, mid, _, shorter, by simp [hl.1, Parsed.read?], by simp [hl.2], rfl⟩
        · cases hs
      · rintro ⟨item', mid', others, shorter', hi, hs, rfl⟩
        split at hi
        · rename_i hl
          obtain ⟨rfl, rfl⟩ := Prod.mk.inj (Option.some.inj hi)
          split at hs
          · rename_i hl'
            obtain ⟨rfl, rfl⟩ := Prod.mk.inj (Option.some.inj hs)
            simp [hl, hl']
          · cases hs
        · cases hi
    · rename_i fault mid bounded hr
      simp [Sequence.read?, Attempt.read?, hr, Parsed.read?]

/-- A sequence stops in front of a closing token or at the end, whether or not it got over
faults. -/
theorem sequence_rest {ts : List Token} (h : ts.length ≤ n) :
    ∀ t ∈ (sequence rule closes ts h).rest.head?, closes t := by
  fun_induction sequence rule closes ts h with
  | case1 => simp
  | case2 t ts h hc => simpa using hc
  | case3 t ts h hc first item mid shorter hr next _ ih => exact ih
  | case4 t ts h hc first fault mid bounded hr next _ ih => exact ih

end

/-- The statements at the top level, up to the end of the tokens. -/
def topLevel (ts : List Token) : Sequence Stmt ts.length :=
  sequence (fun ts _ => statement ts) (fun _ => false) ts (length_le ts)

theorem topLevel_rest (ts : List Token) : (topLevel ts).rest = [] := by
  have stop : ∀ t ∈ (topLevel ts).rest.head?, false = true := sequence_rest _
  cases h : (topLevel ts).rest with
  | nil => rfl
  | cons t rest => simp [h] at stop

end Parse

namespace Script

def body (ts : List Token) : List Token :=
  ts.takeWhile fun t => !decide (t.kind = .endOfInput)

/-- A script has no diagnostics exactly if its statements are read without a fault. -/
theorem read?_topLevel_body (ts : List Token) {program : Program} :
    (Parse.topLevel (body ts)).read? = some (program, []) ↔
      (ofTokens ts).diagnostics = [] ∧ (ofTokens ts).program = program := by
  have clean : (ofTokens ts).diagnostics = [] ↔ (Parse.topLevel (body ts)).log = [] :=
    List.map_eq_nil_iff
  have items : (ofTokens ts).program = (Parse.topLevel (body ts)).items := rfl
  rw [clean, items, Parse.Sequence.read?, Parse.topLevel_rest]
  by_cases h : (Parse.topLevel (body ts)).log = [] <;> simp [h]

end Script

end Scriptlet
