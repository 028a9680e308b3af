import Scriptlet.Proofs.Soundness.Expression

/-! # Where phrases start and stop

Which tokens a phrase of a stratum can start with, which ones go on with it, and what the rule of
the stratum does in front of them. -/

namespace Scriptlet

/-! ## How phrases start and stop -/

namespace Stratum

/-- Whether a phrase of the stratum can start with a token of the given kind. -/
def starts (p : Stratum) : TokenKind → Bool
  | .number | .string | .kwTrue | .kwFalse | .kwNull | .kwNew | .kwThis | .identifier
  | .leftParen => true
  | .bang | .minus => p.rank ≤ unary.rank
  | _ => false

/-- Whether the phrases of the stratum are read in a loop. -/
def loops : Stratum → Bool
  | assignment | unary | primary => false
  | _ => true

theorem starts_tighter {p : Stratum} {kind : TokenKind} (h : p.tighter.starts kind) :
    p.starts kind := by
  cases p <;> cases kind <;> first | exact h | cases h

theorem starts_unary (op : UnaryOp) : unary.starts op.kind := by
  cases op <;> rfl

theorem rank_le_tighter (p : Stratum) : p.rank ≤ p.tighter.rank := by
  cases p <;> decide

end Stratum

/-- The stratum whose phrases a token can go on with. -/
def TokenKind.continues? : TokenKind → Option Stratum
  | .equal | .plusEqual | .minusEqual => some .assignment
  | .orOr => some .logicOr
  | .andAnd => some .logicAnd
  | .equalEqual | .bangEqual => some .equality
  | .less | .lessEqual | .greater | .greaterEqual => some .comparison
  | .plus | .minus => some .term
  | .star | .slash | .percent => some .factor
  | .leftParen | .dot => some .call
  | _ => none

namespace Grammar

/-- A phrase of the stratum ends in front of these tokens: none of them goes on with it or with a
phrase of a tighter stratum. -/
def Stops (p : Stratum) (rest : List Token) : Prop :=
  ∀ t ∈ rest.head?, ∀ q ∈ t.kind.continues?, q.rank < p.rank

variable {p q : Stratum} {t : Token} {ts rest : List Token}

theorem stops_nil (p : Stratum) : Stops p [] := by
  simp [Stops]

theorem stops_cons : Stops p (t :: rest) ↔ ∀ q ∈ t.kind.continues?, q.rank < p.rank := by
  simp [Stops]

theorem Stops.mono (h : Stops p rest) (le : p.rank ≤ q.rank) : Stops q rest :=
  fun t ht r hr => Nat.lt_of_lt_of_le (h t ht r hr) le

theorem Stops.tighter (h : Stops p rest) : Stops p.tighter rest :=
  h.mono p.rank_le_tighter

/-- No phrase goes on with a token that only closes or separates. -/
theorem Stops.of_terminal (p : Stratum) {kind : TokenKind} (h : Terminal kind ts rest)
    (closes : kind.continues? = none) : Stops p ts := by
  obtain ⟨rfl⟩ := h
  rw [stops_cons, closes]
  simp

theorem Stops.of_binary {op : BinaryOp} (h : Terminal op.kind ts rest) :
    Stops op.stratum.tighter ts := by
  obtain ⟨hk⟩ := h
  rw [stops_cons, hk]
  cases op <;> simp [BinaryOp.kind, BinaryOp.stratum, TokenKind.continues?, Stratum.tighter,
    Stratum.rank]

theorem Stops.of_assign {op : AssignOp} (h : Terminal op.kind ts rest) :
    Stops .logicOr ts := by
  obtain ⟨hk⟩ := h
  rw [stops_cons, hk]
  cases op <;> simp [AssignOp.kind, TokenKind.continues?, Stratum.rank]

theorem Phrase.starts {p : Stratum} {ts rest : List Token} {e : Expr} :
    Phrase p ts e rest → ∃ t ∈ ts.head?, p.starts t.kind
  | .tighter d | .assign d .. => by
      obtain ⟨t, ht, hs⟩ := Phrase.starts d
      exact ⟨t, ht, Stratum.starts_tighter hs⟩
  | .operation _ d .. | .emptyCall d .. | .call d .. | .member d .. => Phrase.starts d
  | .unary ⟨hk⟩ _ => ⟨_, rfl, by rw [hk]; exact Stratum.starts_unary _⟩
  | .number hk _ | .string hk | .yes ⟨hk⟩ | .no ⟨hk⟩ | .null ⟨hk⟩ | .new ⟨hk⟩ _ | .this ⟨hk⟩
  | .name ⟨hk⟩ | .group ⟨hk⟩ _ _ => ⟨_, rfl, by rw [hk]; rfl⟩

end Grammar

namespace Parse

open Grammar

/-! ## The rules by stratum -/

def inner {n : Nat} : Below Parsed Expr n := fun ts _ => expression ts

def ruleOf {n : Nat} : Stratum → UpTo Parsed Expr n
  | .assignment => assignment inner
  | .call => call inner
  | .primary => primary inner
  | p => binary inner (levels.drop (p.rank - 1))

/-- What the rule of a stratum does after a phrase: it goes on with its loop, if it has one. -/
def resume {n : Nat} (p : Stratum) (e : Expr) (ts : List Token) (h : ts.length ≤ n) :
    Parsed Expr (ts.length + 1) :=
  match p with
  | .assignment | .unary | .primary => .done e ts
  | .call => postfixes inner e ts h
  | p => operations (levels.getD (p.rank - 1) []) (ruleOf p.tighter) e ts h

variable {n : Nat} {p : Stratum} {t : Token} {ts rest : List Token} {e : Expr}

theorem ruleOf_of_loops (loops : p.loops) (h : ts.length ≤ n) :
    ruleOf p ts h = (ruleOf p.tighter ts h).andThen fun e rest shorter =>
      resume p e rest (le_of_lt_of_le shorter h) := by
  cases p <;> first | rfl | cases loops

theorem lookup_level (loose : p ≠ .assignment) (kind : TokenKind) (op : BinaryOp) :
    (levels.getD (p.rank - 1) []).lookup kind = some op ↔ op.stratum = p ∧ op.kind = kind := by
  obtain ⟨logicOr, logicAnd, equality, comparison, term, factor, -⟩ := levels_stratified
  cases p with
  | assignment => exact absurd rfl loose
  | logicOr => exact logicOr kind op
  | logicAnd => exact logicAnd kind op
  | equality => exact equality kind op
  | comparison => exact comparison kind op
  | term => exact term kind op
  | factor => exact factor kind op
  | unary | call | primary =>
      constructor
      · intro h
        cases h
      · rintro ⟨hs, -⟩
        cases op <;> cases hs

theorem continues?_binary (op : BinaryOp) : op.kind.continues? = some op.stratum := by
  cases op <;> rfl

theorem postfixes_of_stops (stop : Stops .call rest) (h : rest.length ≤ n) :
    (postfixes inner e rest h).read? = some (e, rest) := by
  cases rest with
  | nil => rw [postfixes]; rfl
  | cons t rest =>
      have paren : t.kind ≠ .leftParen := by
        intro hk
        simpa [hk, TokenKind.continues?] using stops_cons.mp stop
      have dot : t.kind ≠ .dot := by
        intro hk
        simpa [hk, TokenKind.continues?] using stops_cons.mp stop
      rw [postfixes, if_neg paren, if_neg dot]
      rfl

theorem operations_of_stops (loose : p ≠ .assignment) (stop : Stops p rest)
    (operand : UpTo Parsed Expr n) (h : rest.length ≤ n) :
    (operations (levels.getD (p.rank - 1) []) operand e rest h).read? = some (e, rest) := by
  cases rest with
  | nil => rw [operations]; rfl
  | cons t rest =>
      rw [operations]
      split
      · rename_i op hop
        obtain ⟨rfl, hk⟩ := (lookup_level loose _ _).mp hop
        have lt := stops_cons.mp stop op.stratum (by rw [← hk, continues?_binary]; rfl)
        exact absurd lt (Nat.lt_irrefl _)
      · rfl

/-- Where a phrase stops, the loop of its stratum ends. -/
theorem resume_of_stops (stop : Stops p rest) (h : rest.length ≤ n) :
    (resume p e rest h).read? = some (e, rest) := by
  cases p with
  | assignment | unary | primary => rfl
  | call => exact postfixes_of_stops stop h
  | logicOr | logicAnd | equality | comparison | term | factor =>
      exact operations_of_stops (by decide) stop _ h

/-- Tokens that start a phrase do not start with a token that starts none. -/
theorem startsWith_of_starts {kind : TokenKind} (starts : ∃ t ∈ ts.head?, p.starts t.kind)
    (other : p.starts kind = false) : startsWith kind ts = false := by
  obtain ⟨t, ht, hs⟩ := starts
  cases ts with
  | nil => cases ht
  | cons first ts =>
      obtain rfl : first = t := by simpa using ht
      by_cases hk : first.kind = kind
      · rw [hk, other] at hs
        cases hs
      · simp [startsWith, hk]

end Parse

end Scriptlet
