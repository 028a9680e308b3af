import Scriptlet.Proofs.Grammar.Expression

/-! How trees are written. A tree determines a list of marks, one for each token, with parentheses
only where the stratum of an operand is looser than its place allows. What a mark leaves open is the
spelling of a literal and the place of a token. -/

namespace Scriptlet

/-- What one token is to say. -/
inductive Mark where
  | sign (kind : TokenKind)
  | name (text : String)
  /-- A name that stands for a value, `this` included. -/
  | reference (text : String)
  | number (value : Float)
  | string (value : String)

namespace Mark

/-- Whether a token says what the mark asks for. A literal may have any spelling that is read back
as its value. -/
def SpelledBy : Mark → Token → Prop
  | sign kind, t => t.kind = kind
  | name text, t => t.kind = .identifier ∧ t.lexeme = text
  | reference text, t =>
      t.kind = .identifier ∧ t.lexeme = text ∨ t.kind = .kwThis ∧ text = "this"
  | number value, t => t.kind = .number ∧ Number.ofDecimal? t.lexeme = some value
  | string value, t =>
      t.kind = .string ∧ String.ofList (Parse.unquote t.lexeme.toList) = value

instance : ∀ (m : Mark) (t : Token), Decidable (m.SpelledBy t)
  | sign _, _ => inferInstanceAs (Decidable (_ = _))
  | name _, _ | number _, _ | string _, _ => inferInstanceAs (Decidable (_ ∧ _))
  | reference _, _ => inferInstanceAs (Decidable (_ ∨ _))

def isEnd : Mark → Bool
  | sign kind => kind = .endOfInput
  | _ => false

end Mark

/-- `Spelled ms ts rest`: the tokens of `ts` in front of `rest` spell the marks, one each. -/
def Spelled : List Mark → List Token → List Token → Prop
  | [], ts, rest => ts = rest
  | m :: ms, ts, rest => ∃ t after, ts = t :: after ∧ m.SpelledBy t ∧ Spelled ms after rest

/-- Items with a comma between each two. -/
def separated : List (List Mark) → List Mark
  | [] => []
  | [item] => item
  | item :: next :: items => item ++ .sign .comma :: separated (next :: items)

/-! ## Expressions -/

/-- An operand of the stratum `q` at a place for the stratum `p`. -/
def enclosed (p q : Stratum) (operand : List Mark) : List Mark :=
  if q.rank < p.rank then .sign .leftParen :: operand ++ [.sign .rightParen] else operand

namespace Expr

/-- The tightest stratum that the expression belongs to without parentheses. -/
def stratum : Expr → Stratum
  | .number .. | .string .. | .bool .. | .null _ | .identifier .. => .primary
  | .call .. | .member .. => .call
  | .unary .. => .unary
  | .binary _ op _ _ => op.stratum
  | .assign .. => .assignment

mutual

/-- The marks of an expression that stands alone. -/
def marks : Expr → List Mark
  | .number _ value => [.number value]
  | .string _ value => [.string value]
  | .bool _ value => [.sign (if value then .kwTrue else .kwFalse)]
  | .null _ => [.sign .kwNull]
  | .identifier _ name => [.reference name]
  | .binary _ op left right =>
      enclosed op.stratum left.stratum left.marks ++ .sign op.kind ::
        enclosed op.stratum.tighter right.stratum right.marks
  | .unary _ op operand => .sign op.kind :: enclosed .unary operand.stratum operand.marks
  | .call _ callee args =>
      enclosed .call callee.stratum callee.marks ++ .sign .leftParen ::
        separated (marksEach args) ++ [.sign .rightParen]
  | .member _ object name =>
      enclosed .call object.stratum object.marks ++ [.sign .dot, .name name]
  | .assign _ op target value =>
      enclosed .logicOr target.stratum target.marks ++ .sign op.kind ::
        enclosed .assignment value.stratum value.marks

def marksEach : List Expr → List (List Mark)
  | [] => []
  | e :: es => e.marks :: marksEach es

end

end Expr

/-! ## Statements -/

def Modifiers.marks (modifiers : Modifiers) : List Mark :=
  if modifiers.isStatic then [.sign .kwStatic]
  else if modifiers.isPublic then [.sign .kwPublic]
  else []

namespace Stmt

def initializerMarks : Option Expr → List Mark
  | none => []
  | some e => .sign .equal :: e.marks

def optionalMarks : Option Expr → List Mark
  | none => []
  | some e => e.marks

def conditionMarks (e : Expr) : List Mark :=
  .sign .leftParen :: e.marks ++ [.sign .rightParen]

mutual

/-- The marks of a statement or of a member of a class. -/
def marks : Stmt → List Mark
  | .expression _ expr => expr.marks ++ [.sign .semicolon]
  | .varDecl _ name initializer =>
      .sign .kwVar :: .name name :: initializerMarks initializer ++ [.sign .semicolon]
  | .returning _ value => .sign .kwReturn :: optionalMarks value ++ [.sign .semicolon]
  | .branch _ condition consequent alternative =>
      .sign .kwIf :: conditionMarks condition ++ consequent.marks ++ alternativeMarks alternative
  | .whileLoop _ condition body => .sign .kwWhile :: conditionMarks condition ++ body.marks
  | .forLoop _ initializer condition step body =>
      .sign .kwFor :: .sign .leftParen :: loopStartMarks initializer ++ optionalMarks condition ++
        .sign .semicolon :: optionalMarks step ++ .sign .rightParen :: body.marks
  | .block _ body => .sign .leftBrace :: marksAll body ++ [.sign .rightBrace]
  | .function _ name params body modifiers =>
      modifiers.marks ++ .sign .kwFunction :: .name name :: .sign .leftParen ::
        separated (params.map fun param => [.name param]) ++ .sign .rightParen ::
          .sign .leftBrace :: marksAll body ++ [.sign .rightBrace]
  | .classDecl _ name members isStatic =>
      (if isStatic then [.sign .kwStatic] else []) ++ .sign .kwClass :: .name name ::
        .sign .leftBrace :: marksAll members ++ [.sign .rightBrace]
  | .property _ name initializer modifiers =>
      modifiers.marks ++ .name name :: initializerMarks initializer ++ [.sign .semicolon]

def marksAll : List Stmt → List Mark
  | [] => []
  | s :: ss => s.marks ++ marksAll ss

def alternativeMarks : Option Stmt → List Mark
  | none => []
  | some s => .sign .kwElse :: s.marks

def loopStartMarks : Option Stmt → List Mark
  | none => [.sign .semicolon]
  | some s => s.marks

end

end Stmt

def Program.marks (program : Program) : List Mark :=
  Stmt.marksAll program

/-! ## Spelling -/

open Grammar

@[simp] theorem spelled_nil {ts rest : List Token} : Spelled [] ts rest ↔ ts = rest := Iff.rfl

theorem spelled_cons {m : Mark} {ms : List Mark} {t : Token} {after rest : List Token} :
    Spelled (m :: ms) (t :: after) rest ↔ m.SpelledBy t ∧ Spelled ms after rest := by
  constructor
  · rintro ⟨t, after, ⟨⟩, spelling, h⟩
    exact ⟨spelling, h⟩
  · rintro ⟨spelling, h⟩
    exact ⟨t, after, rfl, spelling, h⟩

@[simp] theorem spelled_append {ms ns : List Mark} {ts rest : List Token} :
    Spelled (ms ++ ns) ts rest ↔ ∃ a, Spelled ms ts a ∧ Spelled ns a rest := by
  induction ms generalizing ts with
  | nil => simp [Spelled]
  | cons m ms ih =>
      constructor
      · rintro ⟨t, after, rfl, ht, h⟩
        obtain ⟨a, hm, hn⟩ := ih.mp h
        exact ⟨a, ⟨t, after, rfl, ht, hm⟩, hn⟩
      · rintro ⟨a, ⟨t, after, rfl, ht, hm⟩, hn⟩
        exact ⟨t, after, rfl, ht, ih.mpr ⟨a, hm, hn⟩⟩

@[simp] theorem spelled_sign {kind : TokenKind} {ms : List Mark} {ts rest : List Token} :
    Spelled (.sign kind :: ms) ts rest ↔ ∃ a, Terminal kind ts a ∧ Spelled ms a rest := by
  constructor
  · rintro ⟨t, a, rfl, hk, h⟩
    exact ⟨a, ⟨hk⟩, h⟩
  · rintro ⟨a, ⟨hk⟩, h⟩
    exact ⟨_, a, rfl, hk, h⟩

@[simp] theorem spelled_name {text : String} {ms : List Mark} {ts rest : List Token} :
    Spelled (.name text :: ms) ts rest ↔ ∃ a, Named text ts a ∧ Spelled ms a rest := by
  constructor
  · rintro ⟨t, a, rfl, ⟨hk, rfl⟩, h⟩
    exact ⟨a, ⟨hk⟩, h⟩
  · rintro ⟨a, ⟨hk⟩, h⟩
    exact ⟨_, a, rfl, ⟨hk, rfl⟩, h⟩

instance : ∀ (ms : List Mark) (ts rest : List Token), Decidable (Spelled ms ts rest)
  | [], ts, rest => inferInstanceAs (Decidable (ts = rest))
  | _ :: _, [], _ => isFalse (by simp [Spelled])
  | m :: ms, t :: after, rest =>
      have := instDecidableSpelled ms after rest
      decidable_of_iff _ spelled_cons.symm

/-! ## The end of the input

It is no part of a tree: a program can be written in front of the mark for it. -/

def Endless (ms : List Mark) : Prop :=
  ∀ m ∈ ms, m.isEnd = false

@[simp] theorem endless_nil : Endless [] := by simp [Endless]

@[simp] theorem endless_cons {m : Mark} {ms : List Mark} :
    Endless (m :: ms) ↔ m.isEnd = false ∧ Endless ms := List.forall_mem_cons

@[simp] theorem endless_append {ms ns : List Mark} :
    Endless (ms ++ ns) ↔ Endless ms ∧ Endless ns := List.forall_mem_append

theorem endless_separated {items : List (List Mark)} (h : ∀ item ∈ items, Endless item) :
    Endless (separated items) := by
  induction items using separated.induct with
  | case1 => exact endless_nil
  | case2 item => exact h item (List.mem_singleton_self item)
  | case3 item next items ih =>
      rw [List.forall_mem_cons] at h
      simp [separated, h.1, ih h.2, Mark.isEnd]

theorem endless_enclosed {p q : Stratum} {ms : List Mark} (h : Endless ms) :
    Endless (enclosed p q ms) := by
  unfold enclosed
  split <;> simp [h, Mark.isEnd]

mutual

theorem Expr.endless_marks : ∀ e : Expr, Endless e.marks
  | .number .. | .string .. | .null _ | .identifier .. => by simp [Expr.marks, Mark.isEnd]
  | .bool _ value => by cases value <;> simp [Expr.marks, Mark.isEnd]
  | .binary _ op left right => by
      have sign : op.kind ≠ .endOfInput := by cases op <;> decide
      simp [Expr.marks, Mark.isEnd, sign, endless_enclosed left.endless_marks,
        endless_enclosed right.endless_marks]
  | .unary _ op operand => by
      have sign : op.kind ≠ .endOfInput := by cases op <;> decide
      simp [Expr.marks, Mark.isEnd, sign, endless_enclosed operand.endless_marks]
  | .call _ callee args => by
      simp [Expr.marks, Mark.isEnd, endless_enclosed callee.endless_marks,
        endless_separated (Expr.endless_marksEach args)]
  | .member _ object _ => by
      simp [Expr.marks, Mark.isEnd, endless_enclosed object.endless_marks]
  | .assign _ op target value => by
      have sign : op.kind ≠ .endOfInput := by cases op <;> decide
      simp [Expr.marks, Mark.isEnd, sign, endless_enclosed target.endless_marks,
        endless_enclosed value.endless_marks]

theorem Expr.endless_marksEach : ∀ es : List Expr, ∀ ms ∈ Expr.marksEach es, Endless ms
  | [] => by simp [Expr.marksEach]
  | e :: es => by simpa [Expr.marksEach, e.endless_marks] using Expr.endless_marksEach es

end

theorem Modifiers.endless_marks (modifiers : Modifiers) : Endless modifiers.marks := by
  unfold Modifiers.marks
  split
  · simp [Mark.isEnd]
  · split <;> simp [Mark.isEnd]

namespace Stmt

theorem endless_optionalMarks (e : Option Expr) : Endless (optionalMarks e) := by
  cases e with
  | none => exact endless_nil
  | some e => exact e.endless_marks

theorem endless_initializerMarks (e : Option Expr) : Endless (initializerMarks e) := by
  cases e with
  | none => exact endless_nil
  | some e => simp [initializerMarks, Mark.isEnd, e.endless_marks]

theorem endless_conditionMarks (e : Expr) : Endless (conditionMarks e) := by
  simp [conditionMarks, Mark.isEnd, e.endless_marks]

mutual

theorem endless_marks : ∀ s : Stmt, Endless s.marks
  | .expression _ e => by simp [marks, Mark.isEnd, e.endless_marks]
  | .varDecl _ _ value => by simp [marks, Mark.isEnd, endless_initializerMarks value]
  | .returning _ value => by simp [marks, Mark.isEnd, endless_optionalMarks value]
  | .branch _ test s other => by
      simp [marks, Mark.isEnd, endless_conditionMarks test, s.endless_marks,
        endless_alternativeMarks other]
  | .whileLoop _ test body => by
      simp [marks, Mark.isEnd, endless_conditionMarks test, body.endless_marks]
  | .forLoop _ start test step body => by
      simp [marks, Mark.isEnd, endless_loopStartMarks start, endless_optionalMarks test,
        endless_optionalMarks step, body.endless_marks]
  | .block _ body => by simp [marks, Mark.isEnd, endless_marksAll body]
  | .function _ _ params body modifiers => by
      have names : Endless (separated (params.map fun param => [Mark.name param])) :=
        endless_separated (by simp [Mark.isEnd])
      simp [marks, Mark.isEnd, modifiers.endless_marks, names, endless_marksAll body]
  | .classDecl _ _ members isStatic => by
      cases isStatic <;> simp [marks, Mark.isEnd, endless_marksAll members]
  | .property _ _ value modifiers => by
      simp [marks, Mark.isEnd, modifiers.endless_marks, endless_initializerMarks value]

theorem endless_marksAll : ∀ ss : List Stmt, Endless (marksAll ss)
  | [] => endless_nil
  | s :: ss => by simp [marksAll, s.endless_marks, endless_marksAll ss]

theorem endless_alternativeMarks : ∀ s : Option Stmt, Endless (alternativeMarks s)
  | none => endless_nil
  | some s => by simp [alternativeMarks, Mark.isEnd, s.endless_marks]

theorem endless_loopStartMarks : ∀ s : Option Stmt, Endless (loopStartMarks s)
  | none => by simp [loopStartMarks, Mark.isEnd]
  | some s => s.endless_marks

end

end Stmt

end Scriptlet
