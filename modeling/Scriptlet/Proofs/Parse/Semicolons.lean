import Scriptlet.Proofs.Parse.Blame
import Scriptlet.Proofs.Parse.Resumption

/-! # Up to the next semicolon

Tokens in front of a semicolon, none of which is a brace or starts another statement, are a
statement or a member together with the semicolon, or there is something wrong with them. In either
case reading goes on behind the semicolon, whatever stands there. -/

namespace Scriptlet.Parse

variable {α β : Type} {front : List Token} {semi : Token}

/-- Whether a token neither ends a statement, a body or the tokens nor is one in front of which
reading is resumed. -/
def isPlain (t : Token) : Bool :=
  match t.kind with
  | .semicolon | .leftBrace | .rightBrace | .endOfInput => false
  | _ => !startsStatement t

theorem apart_of_plain {t : Token} (plain : isPlain t) :
    t.kind ≠ .semicolon ∧ t.kind ≠ .rightBrace ∧ t.kind ≠ .endOfInput ∧
      startsStatement t = false := by
  unfold isPlain at plain
  split at plain
  case h_5 semicolon _ brace mark => exact ⟨semicolon, brace, mark, by simpa using plain⟩
  all_goals cases plain

theorem loose_or_static {t : Token} (plain : isPlain t) : isLoose t ∨ t.kind = .kwStatic := by
  unfold isPlain at plain
  unfold isLoose
  split at plain
  case h_5 => split <;> simp_all
  all_goals cases plain

/-- The fault is noticed in front of `tail` or at its first token. -/
def Parsed.FailsBefore {n : Nat} (front tail : List Token) (p : Parsed α n) : Prop :=
  ∃ fault left bounded, left <:+ front ∧ p = .error fault (left ++ tail) bounded

namespace Parsed.FailsBefore

variable {m n : Nat} {tail : List Token} {p : Parsed α n}

theorem fail (fault : Fault) (front tail : List Token) :
    (Parsed.fail fault (front ++ tail) : Parsed α _).FailsBefore front tail :=
  ⟨fault, front, Nat.le_refl _, List.suffix_rfl, rfl⟩

theorem mono (h : p.FailsBefore front tail) (le : n ≤ m) : (p.mono le).FailsBefore front tail := by
  obtain ⟨fault, left, bounded, suffix, rfl⟩ := h
  exact ⟨fault, left, _, suffix, rfl⟩

theorem map (h : p.FailsBefore front tail) (f : α → β) : (p.map f).FailsBefore front tail := by
  obtain ⟨fault, left, bounded, suffix, rfl⟩ := h
  exact ⟨fault, left, bounded, suffix, rfl⟩

theorem of_suffix {rest : List Token} (h : p.FailsBefore rest tail) (suffix : rest <:+ front) :
    p.FailsBefore front tail := by
  obtain ⟨fault, left, bounded, inside, rfl⟩ := h
  exact ⟨fault, left, bounded, inside.trans suffix, rfl⟩

end Parsed.FailsBefore

/-- Answers to `front`, a semicolon and any tokens behind it: the semicolon is the last token that
is used up, or a fault is noticed before it is. -/
def EndsAt (front : List Token) (semi : Token) {n : List Token → Nat}
    (p : (behind : List Token) → Parsed α (n behind)) : Prop :=
  (∃ value, ∀ behind, (p behind).read? = some (value, behind)) ∨
    ∀ behind, (p behind).FailsBefore front (semi :: behind)

namespace EndsAt

variable {n : List Token → Nat} {p : (behind : List Token) → Parsed α (n behind)}

theorem succ (h : EndsAt front semi p) : EndsAt front semi fun behind => (p behind).succ := by
  refine h.imp ?_ fun failed behind => (failed behind).mono _
  rintro ⟨value, read⟩
  exact ⟨value, fun behind => by rw [Parsed.read?_succ, read]⟩

theorem map (h : EndsAt front semi p) (f : α → β) :
    EndsAt front semi fun behind => (p behind).map f := by
  refine h.imp ?_ fun failed behind => (failed behind).map f
  rintro ⟨value, read⟩
  exact ⟨f value, fun behind => (Parsed.read?_map f _).mpr ⟨value, read behind, rfl⟩⟩

theorem of_suffix {rest : List Token} (h : EndsAt rest semi p) (suffix : rest <:+ front) :
    EndsAt front semi p :=
  h.imp_right fun failed behind => (failed behind).of_suffix suffix

/-- A first rule does not get as far as the semicolon, and a second one ends there. -/
theorem andThen {m : Nat} {x : Parsed α m}
    {g : (behind : List Token) → α → (rest : List Token) → rest.length < n behind →
      Parsed β (rest.length + 1)}
    (first : ∀ behind, Follows front (semi :: behind) x (p behind))
    (next : ∀ value rest, rest <:+ front →
      ∀ shorter : ∀ behind, (rest ++ semi :: behind).length < n behind,
        EndsAt rest semi fun behind => g behind value (rest ++ semi :: behind) (shorter behind)) :
    EndsAt front semi fun behind => (p behind).andThen (g behind) := by
  cases x with
  | error fault rest bounded =>
      refine .inr fun behind => ?_
      have answer := first behind
      dsimp only
      generalize p behind = q at answer
      cases answer with
      | error suffix => exact ⟨_, rest, _, suffix, rfl⟩
  | ok value rest shorter =>
      have answers (behind) : ∃ h', p behind = .ok value (rest ++ semi :: behind) h' := by
        have answer := first behind
        generalize p behind = q at answer ⊢
        cases answer with
        | ok => exact ⟨_, rfl⟩
      have fits (behind) : (rest ++ semi :: behind).length < n behind := (answers behind).1
      have answers (behind) : p behind = .ok value (rest ++ semi :: behind) (fits behind) :=
        (answers behind).2
      have suffix : rest <:+ front := (first []).rest_suffix
      refine (EndsAt.of_suffix (next value rest suffix fits) suffix).imp ?_ ?_
      · rintro ⟨result, read⟩
        refine ⟨result, fun behind => ?_⟩
        dsimp only
        rw [answers, Parsed.andThen, Parsed.read?_mono]
        exact read behind
      · intro failed behind
        dsimp only
        rw [answers, Parsed.andThen]
        exact (failed behind).mono _

end EndsAt

/-! ## Rules -/

theorem expect_of_ne {what : Expectation} {ts : List Token}
    (other : startsWith what.kind ts = false) :
    expect what ts = .fail ⟨.expected what, ts.head?.map Token.pos⟩ ts := by
  cases ts with
  | nil => rfl
  | cons t ts => exact if_neg (of_decide_eq_false other)

theorem follows_initializer {tail : List Token} (bars : Barred tail) (ts : List Token) :
    Follows ts tail (initializer ts) (initializer (ts ++ tail)) := by
  cases ts with
  | cons t ts =>
      rw [List.cons_append, initializer, initializer]
      split
      · exact ((follows_expression bars ts).map some).cons.succ
      · exact .done none (t :: ts) tail
  | nil =>
      cases tail with
      | nil => exact .done none [] []
      | cons t tail =>
          have other : t.kind ≠ .equal := by simpa [startsWith] using bars.startsWith .equal rfl
          rw [List.nil_append, initializer, initializer, if_neg other]
          exact .done none [] (t :: tail)

section Rules

variable (kind : semi.kind = .semicolon)
include kind

theorem barred_semicolon (behind : List Token) : Barred (semi :: behind) := by
  intro t first
  obtain rfl : semi = t := by simpa using first
  rw [kind]
  rfl

variable (apart : ∀ t ∈ front, t.kind ≠ .semicolon)
include apart

theorem endsAt_expect {what : Expectation} (finishes : what.kind = .semicolon) :
    EndsAt front semi fun behind => expect what (front ++ semi :: behind) := by
  cases front with
  | nil =>
      refine .inl ⟨semi, fun behind => ?_⟩
      rw [read?_expect, kind, finishes]
      exact ⟨rfl, rfl⟩
  | cons t front =>
      refine .inr fun behind => ?_
      have other : startsWith what.kind (t :: front ++ semi :: behind) = false :=
        decide_eq_false (finishes ▸ apart t List.mem_cons_self)
      dsimp only
      rw [expect_of_ne other]
      exact .fail _ (t :: front) _

theorem endsAt_expressionStatement :
    EndsAt front semi fun behind => expressionStatement (front ++ semi :: behind) := by
  refine .andThen (fun behind => follows_expression (barred_semicolon kind behind) front) ?_
  intro e rest suffix _
  exact ((endsAt_expect kind (fun t mem => apart t (suffix.subset mem)) rfl).map _).succ

/-- A name, an initializer and a semicolon. -/
theorem endsAt_named {name final : Expectation} (named : name.kind = .identifier)
    (finishes : final.kind = .semicolon) (f : Token → Option Expr → Stmt) :
    EndsAt front semi fun behind =>
      (expect name (front ++ semi :: behind)).andThen fun t rest _ =>
        (initializer rest).andThen fun value rest _ =>
          ((expect final rest).map fun _ => f t value).succ := by
  have other (behind) : startsWith name.kind (semi :: behind) = false := by
    simp [startsWith, kind, named]
  refine .andThen (fun behind => follows_expect (other behind) front) ?_
  intro t rest suffix _
  refine .andThen (fun behind => follows_initializer (barred_semicolon kind behind) rest) ?_
  intro value left suffix' _
  have apart : ∀ t ∈ left, t.kind ≠ .semicolon :=
    fun t mem => apart t ((suffix'.trans suffix).subset mem)
  exact ((endsAt_expect kind apart finishes).map _).succ

theorem endsAt_varDeclaration (pos : Position) :
    EndsAt front semi fun behind => varDeclaration pos (front ++ semi :: behind) :=
  endsAt_named kind apart rfl rfl fun name value => .varDecl pos name.lexeme value

theorem endsAt_property (modifiers : Modifiers) :
    EndsAt front semi fun behind => property modifiers (front ++ semi :: behind) :=
  endsAt_named kind apart rfl rfl fun name value =>
    .property name.pos name.lexeme value modifiers

end Rules

/-! ## Statements and members -/

theorem statement_var {t : Token} (keyword : t.kind = .kwVar) (ts : List Token) :
    statement (t :: ts) = .clean (varDeclaration t.pos ts).succ := by
  rw [statement]
  simp only [statementFrom, keyword]

theorem statement_static {t : Token} (keyword : t.kind = .kwStatic) {ts : List Token}
    {fault : Fault} (failed : expect .classAfterStatic ts = .fail fault ts) :
    statement (t :: ts) = .clean (Parsed.fail fault ts).succ := by
  rw [statement]
  simp only [statementFrom, keyword, failed]
  rfl

theorem statement_semicolon (kind : semi.kind = .semicolon) (ts : List Token) :
    statement (semi :: ts) = .clean (expressionStatement (semi :: ts)) := by
  rw [statement]
  simp only [statementFrom, kind]

theorem classMember_of_none {n : Nat} {rule : UpTo Attempt Stmt n} {t : Token} {ts : List Token}
    {h : (t :: ts).length ≤ n} (unmodified : modifiers? t.kind = none) :
    classMember rule (t :: ts) h = modified rule {} (t :: ts) h := by
  simp only [classMember, unmodified]

theorem classMember_of_some {n : Nat} {rule : UpTo Attempt Stmt n} {t : Token} {ts : List Token}
    {h : (t :: ts).length ≤ n} {modifiers : Modifiers}
    (spelled : modifiers? t.kind = some modifiers) :
    classMember rule (t :: ts) h = (modified rule modifiers ts (tail_le_of_le h)).succ := by
  simp only [classMember, spelled]

theorem modified_of_ne {n : Nat} {rule : UpTo Attempt Stmt n} (modifiers : Modifiers)
    {ts : List Token} (h : ts.length ≤ n) (other : startsWith .kwFunction ts = false) :
    modified rule modifiers ts h = .clean (property modifiers ts) := by
  cases ts with
  | nil => rfl
  | cons t ts => exact if_neg (by simpa [startsWith] using other)

section Members

variable (kind : semi.kind = .semicolon)
include kind

/-- The token in front of which reading has come is plain or the semicolon. -/
theorem startsWith_append_semicolon (plain : ∀ t ∈ front, isPlain t) {keyword : TokenKind}
    (starts : ∀ t, t.kind = keyword → startsStatement t) (behind : List Token) :
    startsWith keyword (front ++ semi :: behind) = false := by
  cases front with
  | nil =>
      refine decide_eq_false fun same => ?_
      have first := starts semi same
      simp [startsStatement, kind] at first
  | cons t front =>
      refine decide_eq_false fun same => ?_
      have first := starts t same
      simp [(apart_of_plain (plain t List.mem_cons_self)).2.2.2] at first

theorem exists_endsAt_statement (opening : ∀ t ∈ front.head?, t.kind = .kwVar ∨ isPlain t)
    (plain : ∀ t ∈ front.tail, isPlain t) :
    ∃ p : (behind : List Token) → Parsed Stmt (front ++ semi :: behind).length,
      EndsAt front semi p ∧ ∀ behind, statement (front ++ semi :: behind) = .clean (p behind) := by
  cases front with
  | nil =>
      exact ⟨_, endsAt_expressionStatement kind (by simp), fun behind =>
        statement_semicolon kind behind⟩
  | cons t front =>
      have plain : ∀ t ∈ front, isPlain t := plain
      have inner : ∀ t ∈ front, t.kind ≠ .semicolon := fun t mem => (apart_of_plain (plain t mem)).1
      have suffix := List.suffix_cons t front
      rcases opening t rfl with keyword | first
      · exact ⟨_, (endsAt_varDeclaration kind inner t.pos).succ.of_suffix suffix, fun behind =>
          statement_var keyword _⟩
      · rcases loose_or_static first with loose | keyword
        · have apart : ∀ u ∈ t :: front, u.kind ≠ .semicolon :=
            List.forall_mem_cons.mpr ⟨(apart_of_plain first).1, inner⟩
          exact ⟨_, endsAt_expressionStatement kind apart, fun behind => statement_of_loose loose⟩
        · -- No class follows, so the fault is noticed behind the keyword.
          have other (behind) : startsWith .kwClass (front ++ semi :: behind) = false :=
            startsWith_append_semicolon kind plain
              (fun t same => by simp [startsStatement, same]) behind
          refine ⟨_, .inr fun behind => ?_, fun behind =>
            statement_static keyword (expect_of_ne (other behind))⟩
          exact ((Parsed.FailsBefore.fail _ front _).mono _).of_suffix suffix

theorem exists_endsAt_classMember (plain : ∀ t ∈ front, isPlain t) :
    ∃ p : (behind : List Token) → Parsed Stmt (front ++ semi :: behind).length,
      EndsAt front semi p ∧ ∀ behind,
        classMember anyStatement (front ++ semi :: behind) (length_le _) = .clean (p behind) := by
  have other {us : List Token} (plain : ∀ t ∈ us, isPlain t) (behind) :
      startsWith .kwFunction (us ++ semi :: behind) = false :=
    startsWith_append_semicolon kind plain (fun t same => by simp [startsStatement, same]) behind
  have inner : ∀ t ∈ front, t.kind ≠ .semicolon := fun t mem => (apart_of_plain (plain t mem)).1
  cases front with
  | nil =>
      have unmodified : modifiers? semi.kind = none := by rw [kind]; rfl
      refine ⟨_, endsAt_property kind inner {}, fun behind => ?_⟩
      exact (classMember_of_none unmodified).trans (modified_of_ne _ _ (other plain behind))
  | cons t front =>
      cases spelled : modifiers? t.kind with
      | none =>
          refine ⟨_, endsAt_property kind inner {}, fun behind => ?_⟩
          exact (classMember_of_none spelled).trans (modified_of_ne _ _ (other plain behind))
      | some modifiers =>
          have plain := (List.forall_mem_cons.mp plain).2
          have inner := (List.forall_mem_cons.mp inner).2
          refine ⟨_, (endsAt_property kind inner modifiers).succ.of_suffix
            (List.suffix_cons t front), fun behind => ?_⟩
          exact (classMember_of_some spelled).trans
            (congrArg Attempt.succ (modified_of_ne modifiers _ (other plain behind)))

end Members

/-! ## Behind the semicolon -/

/-- What becomes of the tokens of `span`: all of them are read, or one of them is blamed. -/
def Attempt.Settles {n : Nat} (span : List Token) (phrase : α → Prop) (a : Attempt α n) : Prop :=
  (∃ value, a.kept = some value ∧ a.faults = [] ∧ phrase value) ∨
    (a.kept = none ∧ ∃ fault, a.faults = [fault] ∧ ∃ t ∈ span, fault.pos = some t.pos)

/-- Tokens in front of a semicolon are passed over together with it. -/
theorem synchronize_semicolon (kind : semi.kind = .semicolon) {left : List Token}
    (apart : ∀ t ∈ left, t.kind ≠ .semicolon) (inner : ∀ t ∈ left.tail, startsStatement t = false)
    (behind : List Token) : synchronize (left ++ semi :: behind) = behind := by
  induction left with
  | nil => simp [synchronize, kind]
  | cons t left ih =>
      have inner : ∀ t ∈ left, startsStatement t = false := inner
      obtain ⟨here, apart⟩ := List.forall_mem_cons.mp apart
      have going : (left ++ semi :: behind).head?.any startsStatement = false := by
        cases left with
        | nil => simp [startsStatement, kind]
        | cons u left => simpa using inner u List.mem_cons_self
      rw [List.cons_append, synchronize, going, decide_eq_false here]
      exact ih apart fun t mem => inner t (List.mem_of_mem_tail mem)

/-- A token that has all of `behind` behind it stands in front of `behind`. -/
theorem mem_of_suffix_append {t : Token} {span rest behind : List Token}
    (place : t :: rest <:+ span ++ behind) (later : behind <:+ rest) : t ∈ span := by
  obtain ⟨front, split⟩ := place
  have longer := later.length_le
  rcases List.append_eq_append_iff.mp split with ⟨mid, rfl, tail⟩ | ⟨mid, rfl, tail⟩
  · cases mid with
    | nil =>
        have shorter := congrArg List.length tail
        rw [List.nil_append, List.length_cons] at shorter
        omega
    | cons u mid =>
        obtain ⟨rfl, -⟩ := List.cons.inj tail
        simp
  · have shorter := congrArg List.length tail
    rw [List.length_append, List.length_cons] at shorter
    omega

/-- A fault that is noticed at the semicolon or before it blames one of the tokens up to there. -/
theorem Attempt.Orderly.exists_blamed {n : Nat} {fault : Fault} {left behind : List Token}
    {bounded : (left ++ semi :: behind).length ≤ n}
    (h : (clean (.error fault (left ++ semi :: behind) bounded) : Attempt α n).Orderly
      (front ++ semi :: behind)) : ∃ t ∈ front ++ [semi], fault.pos = some t.pos := by
  -- The end is blamed only where no token is left, and here the semicolon is.
  obtain ⟨-, blamed, ended⟩ := h
  cases blamed with
  | atEnd nowhere => exact absurd (ended nowhere) (by simp)
  | @token _ t rest _ _ _ place blamed later =>
      have left_behind : behind <:+ (left ++ semi :: behind).tail := by
        cases left with
        | nil => exact List.suffix_rfl
        | cons u left => exact (List.suffix_cons semi behind).trans (List.suffix_append left _)
      rw [List.append_cons] at place
      exact ⟨t, mem_of_suffix_append place (left_behind.trans later.rest_suffix), blamed⟩

theorem EndsAt.settles {n : List Token → Nat} {p : (behind : List Token) → Parsed α (n behind)}
    (h : EndsAt front semi p) (kind : semi.kind = .semicolon)
    (apart : ∀ t ∈ front, t.kind ≠ .semicolon) (inner : ∀ t ∈ front.tail, startsStatement t = false)
    {behind : List Token} (orderly : (Attempt.clean (p behind)).Orderly (front ++ semi :: behind)) :
    (Attempt.clean (p behind)).resumed = behind ∧
      (Attempt.clean (p behind)).Settles (front ++ [semi]) fun value =>
        (p []).read? = some (value, []) := by
  rcases h with ⟨value, read⟩ | failed
  · have alone := read []
    have read := read behind
    generalize p behind = q at read
    cases q with
    | error => cases read
    | ok =>
        obtain ⟨rfl, rfl⟩ := Prod.mk.inj (Option.some.inj read)
        exact ⟨rfl, .inl ⟨_, rfl, rfl, alone⟩⟩
  · obtain ⟨fault, left, bounded, suffix, failed⟩ := failed behind
    rw [failed] at orderly ⊢
    refine ⟨?_, .inr ⟨rfl, fault, rfl, orderly.exists_blamed⟩⟩
    refine synchronize_semicolon kind (fun t mem => apart t (suffix.subset mem)) ?_ behind
    intro t mem
    obtain ⟨before, rfl⟩ := suffix
    cases before with
    | nil => exact inner t mem
    | cons u before => exact inner t (List.mem_append_right before (List.mem_of_mem_tail mem))

end Scriptlet.Parse
