import Scriptlet.Parse.Result

/-! Going on after a fault: the rest of the rejected statement is passed over, and the statements
after it are read as if it had not been there. -/

namespace Scriptlet.Parse

/-- The keywords that statements start with and that no expression contains. -/
def startsStatement (t : Token) : Bool :=
  match t.kind with
  | .kwClass | .kwFunction | .kwVar | .kwFor | .kwIf | .kwWhile | .kwReturn => true
  | _ => false

/-- Passes over tokens, at least one of them, up to the first place that is after a semicolon or in
front of a statement. -/
def synchronize : List Token → List Token
  | [] => []
  | t :: ts =>
      if t.kind = .semicolon || ts.head?.any startsStatement then ts else synchronize ts

theorem synchronize_length (ts : List Token) : (synchronize ts).length ≤ ts.length - 1 := by
  induction ts with
  | nil => exact Nat.le_refl 0
  | cons t ts ih =>
      rw [synchronize]
      split
      · exact Nat.le_refl _
      · exact Nat.le_trans ih (Nat.sub_le ts.length 1)

theorem synchronize_lt {t : Token} {ts rest : List Token}
    (bounded : rest.length ≤ (t :: ts).length) :
    (synchronize rest).length < (t :: ts).length :=
  Nat.lt_succ_of_le (Nat.le_trans (synchronize_length rest) (Nat.sub_le_of_le_add bounded))

/-- What was read up to a closing token or the end: the items, the faults that were got over, and
the tokens left. -/
structure Sequence (α : Type) (n : Nat) where
  items : List α
  log : List Fault
  rest : List Token
  bounded : rest.length ≤ n

/-- Goes on after the items with a rule for the tokens left. -/
def Sequence.andThen {α β : Type} {n : Nat} (s : Sequence α n)
    (rule : List α → (rest : List Token) → Parsed β (rest.length + 1)) : Attempt β (n + 1) :=
  ⟨s.log, (rule s.items s.rest).mono (Nat.succ_le_succ s.bounded)⟩

/-- Reads items until a token closes the sequence or the tokens end, and gets over every fault. -/
def sequence {α : Type} {n : Nat} (rule : UpTo Attempt α n) (closes : Token → Bool)
    (ts : List Token) (h : ts.length ≤ n) : Sequence α ts.length :=
  match ts with
  | [] => ⟨[], [], [], length_le []⟩
  | t :: ts =>
      if closes t then ⟨[], [], t :: ts, length_le (t :: ts)⟩
      else
        let first := rule (t :: ts) h
        match first.result with
        | .ok item rest shorter =>
            let next := sequence rule closes rest (le_of_lt_of_le shorter h)
            ⟨item :: next.items, first.log ++ next.log, next.rest,
              Nat.le_trans next.bounded (Nat.le_of_lt shorter)⟩
        | .error fault rest bounded =>
            let next := sequence rule closes (synchronize rest)
              (le_of_lt_of_le (synchronize_lt bounded) h)
            ⟨next.items, first.log ++ fault :: next.log, next.rest,
              Nat.le_trans next.bounded (Nat.le_of_lt (synchronize_lt bounded))⟩
termination_by ts.length
decreasing_by
  · exact shorter
  · exact synchronize_lt bounded

end Scriptlet.Parse
