import Scriptlet.Parse.Fault

/-! Answers of grammar rules. A rule reads a token list from the front; its answer says what is left
and proves that tokens were used up, which is why the rules come to an end. -/

namespace Scriptlet.Parse

/-- The answer of a rule to `n` tokens: a value and fewer tokens, or a fault and the tokens from
where it was noticed. -/
inductive Parsed (α : Type) (n : Nat) where
  | ok (value : α) (rest : List Token) (shorter : rest.length < n)
  | error (fault : Fault) (rest : List Token) (bounded : rest.length ≤ n)

namespace Parsed

/-- An answer that leaves all tokens. -/
def done {α : Type} (value : α) (rest : List Token) : Parsed α (rest.length + 1) :=
  .ok value rest (Nat.lt_succ_self _)

def take {α : Type} (value : α) (t : Token) (rest : List Token) : Parsed α (t :: rest).length :=
  done value rest

/-- A fault noticed in front of the tokens. -/
def fail {α : Type} (fault : Fault) (rest : List Token) : Parsed α rest.length :=
  .error fault rest (Nat.le_refl _)

/-- An answer to fewer tokens is an answer to more. -/
def mono {α : Type} {m n : Nat} (le : m ≤ n) : Parsed α m → Parsed α n
  | .ok value rest shorter => .ok value rest (Nat.lt_of_lt_of_le shorter le)
  | .error fault rest bounded => .error fault rest (Nat.le_trans bounded le)

/-- An answer to some tokens is an answer to one more. -/
def succ {α : Type} {n : Nat} (answer : Parsed α n) : Parsed α (n + 1) :=
  answer.mono (Nat.le_succ n)

/-- Goes on with the tokens left by a first rule. -/
def andThen {α β : Type} {n : Nat} (first : Parsed α n)
    (second : α → (rest : List Token) → rest.length < n → Parsed β (rest.length + 1)) :
    Parsed β n :=
  match first with
  | .ok value rest shorter => (second value rest shorter).mono shorter
  | .error fault rest bounded => .error fault rest bounded

def map {α β : Type} {n : Nat} (f : α → β) : Parsed α n → Parsed β n
  | .ok value rest shorter => .ok (f value) rest shorter
  | .error fault rest bounded => .error fault rest bounded

end Parsed

/-- A rule for lists of fewer than `n` tokens. -/
abbrev Below (ρ : Type → Nat → Type) (α : Type) (n : Nat) : Type :=
  (ts : List Token) → ts.length < n → ρ α ts.length

/-- A rule for lists of at most `n` tokens. -/
abbrev UpTo (ρ : Type → Nat → Type) (α : Type) (n : Nat) : Type :=
  (ts : List Token) → ts.length ≤ n → ρ α ts.length

section Bounds

variable {n : Nat} {t : Token} {ts rest : List Token}

theorem length_le (ts : List Token) : ts.length ≤ ts.length := Nat.le_refl _

theorem tail_lt_of_le (h : (t :: ts).length ≤ n) : ts.length < n := h

theorem tail_le_of_le (h : (t :: ts).length ≤ n) : ts.length ≤ n := Nat.le_of_lt h

theorem tail_lt_of_lt (h : (t :: ts).length < n) : ts.length < n := Nat.lt_of_succ_lt h

theorem lt_of_lt_of_le (shorter : rest.length < ts.length) (h : ts.length ≤ n) : rest.length < n :=
  Nat.lt_of_lt_of_le shorter h

theorem le_of_lt_of_le (shorter : rest.length < ts.length) (h : ts.length ≤ n) : rest.length ≤ n :=
  Nat.le_of_lt (lt_of_lt_of_le shorter h)

theorem lt_of_lt_of_lt (shorter : rest.length < ts.length) (h : ts.length < n) : rest.length < n :=
  Nat.lt_trans shorter h

end Bounds

def startsWith (kind : TokenKind) : List Token → Bool
  | [] => false
  | t :: _ => t.kind = kind

def expect (what : Expectation) : (ts : List Token) → Parsed Token ts.length
  | [] => .fail ⟨.expected what, none⟩ []
  | t :: ts =>
      if t.kind = what.kind then .take t t ts
      else .fail ⟨.expected what, some t.pos⟩ (t :: ts)

/-- The answer of a rule that goes on after faults: the faults it got over, in order, and an
answer. -/
structure Attempt (α : Type) (n : Nat) where
  log : List Fault
  result : Parsed α n

namespace Attempt

/-- An answer that no fault came before. -/
def clean {α : Type} {n : Nat} (result : Parsed α n) : Attempt α n :=
  ⟨[], result⟩

@[inherit_doc Parsed.succ]
def succ {α : Type} {n : Nat} (a : Attempt α n) : Attempt α (n + 1) :=
  ⟨a.log, a.result.succ⟩

/-- Goes on with the tokens left by a first rule; the faults it got over come first. -/
def andThen {α β : Type} {n : Nat} (first : Attempt α n)
    (second : α → (rest : List Token) → rest.length < n → Attempt β (rest.length + 1)) :
    Attempt β n :=
  match first.result with
  | .ok value rest shorter =>
      let next := second value rest shorter
      ⟨first.log ++ next.log, next.result.mono shorter⟩
  | .error fault rest bounded => ⟨first.log, .error fault rest bounded⟩

def map {α β : Type} {n : Nat} (f : α → β) (a : Attempt α n) : Attempt β n :=
  ⟨a.log, a.result.map f⟩

end Attempt

end Scriptlet.Parse
