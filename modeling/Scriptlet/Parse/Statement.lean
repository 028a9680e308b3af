import Scriptlet.Parse.Expression
import Scriptlet.Parse.Recovery

/-! The grammar of statements. As with expressions, each rule is told how to read the statements
nested in it, and `statement` closes the circle. -/

namespace Scriptlet.Parse

/-- An expression and a semicolon. -/
def expressionStatement (ts : List Token) : Parsed Stmt ts.length :=
  (expression ts).andThen fun e rest _ =>
    ((expect .expressionEnd rest).map fun _ => .expression e.pos e).succ

/-- An equals sign and a value, or nothing. -/
def initializer (ts : List Token) : Parsed (Option Expr) (ts.length + 1) :=
  match ts with
  | [] => .done none []
  | t :: ts =>
      if t.kind = .equal then ((expression ts).map some).succ.succ else .done none (t :: ts)

def varDeclaration (pos : Position) (ts : List Token) : Parsed Stmt ts.length :=
  (expect .variableName ts).andThen fun name rest _ =>
    (initializer rest).andThen fun value rest _ =>
      ((expect .variableEnd rest).map fun _ => .varDecl pos name.lexeme value).succ

/-- A property after its modifiers. -/
def property (modifiers : Modifiers) (ts : List Token) : Parsed Stmt ts.length :=
  (expect .memberName ts).andThen fun name rest _ =>
    (initializer rest).andThen fun value rest _ =>
      ((expect .propertyEnd rest).map
        fun _ => .property name.pos name.lexeme value modifiers).succ

/-- One or more parameter names between commas. -/
def parameterNames (ts : List Token) : Parsed (List String) ts.length :=
  (expect .parameterName ts).andThen fun name rest _shorter =>
    match rest with
    | t :: rest =>
        if t.kind = .comma then
          ((parameterNames rest).map fun names => name.lexeme :: names).succ.succ
        else .done [name.lexeme] (t :: rest)
    | [] => .done [name.lexeme] []
termination_by ts.length
decreasing_by exact tail_lt_of_lt _shorter

/-- The parameter names after the opening parenthesis, if any. -/
def parameters (ts : List Token) : Parsed (List String) (ts.length + 1) :=
  if startsWith .rightParen ts then .done [] ts else (parameterNames ts).succ

def closesBody (t : Token) : Bool :=
  t.kind = .rightBrace

/-- The closing brace. A block that is still open when the tokens end is closed there. -/
def blockEnd {α : Type} (value : α) : (ts : List Token) → Parsed α (ts.length + 1)
  | [] => .done value []
  | t :: ts => (Parsed.take value t ts).succ

/-- The statements after an opening brace, and the closing brace. -/
def blockBody {n : Nat} (rule : UpTo Attempt Stmt n) (ts : List Token) (h : ts.length ≤ n) :
    Attempt (List Stmt) (ts.length + 1) :=
  (sequence rule closesBody ts h).andThen blockEnd

/-- The name and the parameters of a function, up to the brace that opens its body. -/
def functionHead (ts : List Token) : Parsed (Token × List String) ts.length :=
  (expect .functionName ts).andThen fun name rest _ =>
    ((expect .parameters rest).andThen fun _ rest _ =>
      (parameters rest).andThen fun params rest _ =>
        ((expect .parametersEnd rest).andThen fun _ rest _ =>
          ((expect .functionBody rest).map fun _ => (name, params)).succ).succ).succ

def function {n : Nat} (rule : UpTo Attempt Stmt n) (modifiers : Modifiers) (ts : List Token)
    (h : ts.length ≤ n) : Attempt Stmt ts.length :=
  (Attempt.clean (functionHead ts)).andThen fun (name, params) rest shorter =>
    (blockBody rule rest (le_of_lt_of_le shorter h)).map fun body =>
      .function name.pos name.lexeme params body modifiers

/-- A function or a property, which is what modifiers stand in front of. -/
def modified {n : Nat} (rule : UpTo Attempt Stmt n) (modifiers : Modifiers) (ts : List Token)
    (h : ts.length ≤ n) : Attempt Stmt ts.length :=
  match ts with
  | [] => .clean (property modifiers [])
  | t :: ts =>
      if t.kind = .kwFunction then (function rule modifiers ts (tail_le_of_le h)).succ
      else .clean (property modifiers (t :: ts))

/-- The modifiers that a token spells. -/
def modifiers? : TokenKind → Option Modifiers
  | .kwPublic => some { isPublic := true }
  | .kwPrivate => some {}
  | .kwStatic => some { isStatic := true }
  | _ => none

/-- A member of a class: at most one modifier, then a function or a property. -/
def classMember {n : Nat} (rule : UpTo Attempt Stmt n) : UpTo Attempt Stmt n
  | [], h => modified rule {} [] h
  | t :: ts, h =>
    match modifiers? t.kind with
    | some modifiers => (modified rule modifiers ts (tail_le_of_le h)).succ
    | none => modified rule {} (t :: ts) h

/-- The name of a class, up to the brace that opens its body. -/
def classHead (ts : List Token) : Parsed Token ts.length :=
  (expect .className ts).andThen fun name rest _ =>
    ((expect .classBody rest).map fun _ => name).succ

/-- A class after its keyword; `pos` is where the declaration starts. -/
def classDeclaration {n : Nat} (rule : UpTo Attempt Stmt n) (isStatic : Bool) (pos : Position)
    (ts : List Token) (h : ts.length ≤ n) : Attempt Stmt ts.length :=
  (Attempt.clean (classHead ts)).andThen fun name rest shorter =>
    (sequence (classMember rule) closesBody rest (le_of_lt_of_le shorter h)).andThen
      fun members rest =>
        ((expect .classEnd rest).map fun _ => .classDecl pos name.lexeme members isStatic).succ

/-- The end of a return statement: a semicolon, or nothing in front of a closing brace or the end.
-/
def returnEnd (ts : List Token) : Parsed Unit (ts.length + 1) :=
  match ts with
  | [] => .done () []
  | t :: ts =>
      if t.kind = .semicolon then (Parsed.take () t ts).succ
      else if t.kind = .rightBrace then .done () (t :: ts)
      else (Parsed.fail ⟨.expected .returnEnd, some t.pos⟩ (t :: ts)).succ

/-- The value of a return statement, absent where the statement ends at once. -/
def returnValue (ts : List Token) : Parsed (Option Expr) (ts.length + 1) :=
  if ts.isEmpty || startsWith .semicolon ts || startsWith .rightBrace ts then .done none ts
  else ((expression ts).map some).succ

def returnStatement (pos : Position) (ts : List Token) : Parsed Stmt (ts.length + 1) :=
  (returnValue ts).andThen fun value rest _ =>
    (returnEnd rest).map fun _ => .returning pos value

/-- The alternative of a branch, if there is one. -/
def alternative {n : Nat} (nested : Below Attempt Stmt n) (ts : List Token) (h : ts.length ≤ n) :
    Attempt (Option Stmt) (ts.length + 1) :=
  match ts with
  | [] => .clean (.done none [])
  | t :: ts =>
      if t.kind = .kwElse then ((nested ts (tail_lt_of_le h)).map some).succ.succ
      else .clean (.done none (t :: ts))

def condition (opening closing : Expectation) (ts : List Token) : Parsed Expr ts.length :=
  (expect opening ts).andThen fun _ rest _ =>
    ((expression rest).andThen fun e rest _ =>
      ((expect closing rest).map fun _ => e).succ).succ

def branch {n : Nat} (nested : Below Attempt Stmt n) (pos : Position) (ts : List Token)
    (h : ts.length ≤ n) : Attempt Stmt ts.length :=
  (Attempt.clean (condition .ifCondition .ifConditionEnd ts)).andThen fun test rest shorter =>
    ((nested rest (lt_of_lt_of_le shorter h)).andThen fun consequent after shorter' =>
      (alternative nested after
        (le_of_lt_of_le shorter' (le_of_lt_of_le shorter h))).map fun other =>
          .branch pos test consequent other).succ

def whileLoop {n : Nat} (nested : Below Attempt Stmt n) (pos : Position) (ts : List Token)
    (h : ts.length ≤ n) : Attempt Stmt ts.length :=
  (Attempt.clean (condition .whileCondition .whileConditionEnd ts)).andThen
    fun test rest shorter =>
      ((nested rest (lt_of_lt_of_le shorter h)).map fun body => .whileLoop pos test body).succ

/-- The first clause of a for loop with its semicolon. -/
def loopStart (ts : List Token) : Parsed (Option Stmt) ts.length :=
  match ts with
  | [] => (expressionStatement []).map some
  | t :: ts =>
      if t.kind = .semicolon then .take none t ts
      else if t.kind = .kwVar then ((varDeclaration t.pos ts).map some).succ
      else (expressionStatement (t :: ts)).map some

/-- A clause of a for loop that may be left out in front of a token of the given kind. -/
def loopClause (closing : TokenKind) (ts : List Token) : Parsed (Option Expr) (ts.length + 1) :=
  if startsWith closing ts then .done none ts else ((expression ts).map some).succ

/-- The three clauses of a for loop in parentheses. -/
def loopHead (ts : List Token) : Parsed (Option Stmt × Option Expr × Option Expr) ts.length :=
  (expect .forClauses ts).andThen fun _ rest _ =>
    ((loopStart rest).andThen fun start rest _ =>
      (loopClause .semicolon rest).andThen fun test rest _ =>
        ((expect .loopConditionEnd rest).andThen fun _ rest _ =>
          (loopClause .rightParen rest).andThen fun step rest _ =>
            ((expect .forClausesEnd rest).map fun _ => (start, test, step)).succ).succ).succ

def forLoop {n : Nat} (nested : Below Attempt Stmt n) (pos : Position) (ts : List Token)
    (h : ts.length ≤ n) : Attempt Stmt ts.length :=
  (Attempt.clean (loopHead ts)).andThen fun (start, test, step) rest shorter =>
    ((nested rest (lt_of_lt_of_le shorter h)).map fun body =>
      .forLoop pos start test step body).succ

/-- A statement whose first token is `t`. -/
def statementFrom {n : Nat} (nested : Below Attempt Stmt n) (t : Token) (ts : List Token)
    (h : ts.length < n) : Attempt Stmt (ts.length + 1) :=
  let rule : UpTo Attempt Stmt ts.length := fun rest le => nested rest (Nat.lt_of_le_of_lt le h)
  have le := length_le ts
  match t.kind with
  | .kwVar => .clean (varDeclaration t.pos ts).succ
  | .kwStatic =>
      ((Attempt.clean (expect .classAfterStatic ts)).andThen fun _ rest shorter =>
        (classDeclaration rule true t.pos rest (le_of_lt_of_le shorter le)).succ).succ
  | .kwClass => (classDeclaration rule false t.pos ts le).succ
  | .kwFunction => (function rule {} ts le).succ
  | .kwReturn => .clean (returnStatement t.pos ts)
  | .kwIf => (branch nested t.pos ts (Nat.le_of_lt h)).succ
  | .kwWhile => (whileLoop nested t.pos ts (Nat.le_of_lt h)).succ
  | .kwFor => (forLoop nested t.pos ts (Nat.le_of_lt h)).succ
  | .leftBrace => (blockBody rule ts le).map fun body => .block t.pos body
  | _ => .clean (expressionStatement (t :: ts))

def statement (ts : List Token) : Attempt Stmt ts.length :=
  match ts with
  | [] => .clean (expressionStatement [])
  | t :: ts => statementFrom (fun shorter _ => statement shorter) t ts (Nat.lt_succ_self _)
termination_by ts.length

end Scriptlet.Parse
