import Scriptlet.Parse.Program

/-! # Reading with a cursor

The rules of the grammar once more, by the same names, as walks of a cursor over one token list.
Nothing is cut off before the walk: an end mark may stand anywhere in the list or nowhere, and every
look at the tokens has to mind it. Nor is it clear beforehand that a walk comes to an end: rules
that lead back to themselves, which call each other with `|>.`, are least fixed points. -/

namespace Scriptlet

open Parse

/-- Where reading stands: the index of the next token, and what was reported so far. -/
structure Cursor where
  index : Nat
  reports : List Diagnostic

/-- The tokens that a cursor goes over. -/
abbrev Tokens : Type :=
  List Token

/-- A walk from a cursor to a cursor; none if it never ends. -/
abbrev Walk (α : Type) : Type :=
  StateT Cursor Option α

/-- A walk that stops where something is wrong. -/
abbrev Trial (α : Type) : Type :=
  ExceptT Diagnostic (StateT Cursor Option) α

namespace Cursor

/-- The mark that stands behind every token list. -/
def endMark : Token := ⟨.endOfInput, "", ⟨0, 0⟩⟩

variable (ts : Tokens)

def peek (c : Cursor) : Token :=
  ts.getD c.index endMark

def previous (c : Cursor) : Token :=
  match c.index with
  | 0 => endMark
  | i + 1 => ts.getD i endMark

/-- Whether the next token is an end mark. -/
def atEnd (c : Cursor) : Bool :=
  (c.peek ts).kind = .endOfInput

/-- Whether the next token is of the given kind; an end mark is of none. -/
def check (kind : TokenKind) (c : Cursor) : Bool :=
  !c.atEnd ts && (c.peek ts).kind = kind

def advance (c : Cursor) : Cursor :=
  if c.atEnd ts then c else { c with index := c.index + 1 }

/-- Blames the next token. -/
def blame (cause : SyntaxCause) (c : Cursor) : Diagnostic :=
  ⟨cause, (c.peek ts).pos⟩

def report (d : Diagnostic) (c : Cursor) : Cursor :=
  { c with reports := c.reports ++ [d] }

end Cursor

namespace Tokens

open Cursor

variable (ts : Tokens)

/-! ## Single tokens -/

def advance : Trial Token := do
  modify (·.advance ts)
  return (← get).previous ts

/-- Takes the next token if it is of the given kind. -/
def accept (kind : TokenKind) : Trial Bool := do
  if (← get).check ts kind then
    let _ ← ts.advance
    return true
  else return false

def acceptOperator {β : Type} (table : List (TokenKind × β)) : Trial (Option β) := do
  let c ← get
  match table.find? fun entry => c.check ts entry.1 with
  | some entry =>
      let _ ← ts.advance
      return some entry.2
  | none => return none

def demand (what : Expectation) : Trial Token := do
  if (← get).check ts what.kind then ts.advance
  else throw ((← get).blame ts (.expected what))

/-- Passes over tokens up to a place that is after a semicolon or in front of a statement. -/
def skip (ts : Tokens) : Walk Unit := do
  let c ← get
  if c.atEnd ts || (c.previous ts).kind = .semicolon || startsStatement (c.peek ts) then return ()
  else
    modify (·.advance ts)
    ts |>.skip
partial_fixpoint

/-- Passes over the token where a fault was noticed, and on to the next statement. -/
def synchronize : Walk Unit := do
  modify (·.advance ts)
  ts.skip

/-- What becomes of a statement that was tried: a fault is reported and got over. -/
def settle : Except Diagnostic Stmt → Walk (Option Stmt)
  | .ok s => return some s
  | .error d => do
      modify (·.report d)
      ts.synchronize
      return none

/-! ## Expressions -/

def unaryOps : List (TokenKind × UnaryOp) :=
  [(.bang, .not), (.minus, .negate)]

def assignOps : List (TokenKind × AssignOp) :=
  [(.equal, .set), (.plusEqual, .add), (.minusEqual, .sub)]

/-- Takes the next token, which is all of the expression. -/
def literal (e : Expr) : Trial Expr := do
  let _ ← ts.advance
  return e

mutual

def expression (ts : Tokens) : Trial Expr := do
  let target ← ts |>.binary levels
  match ← ts.acceptOperator assignOps with
  | some op =>
      let sign := (← get).previous ts
      let value ← ts |>.expression
      if target.isTarget then return .assign sign.pos op target value
      else throw ⟨.invalidTarget, sign.pos⟩
  | none => return target
partial_fixpoint

/-- Operations of the given precedences on unary expressions. -/
def binary (ts : Tokens) : List Level → Trial Expr
  | [] => ts |>.unary
  | level :: tighter => do
      let left ← ts |>.binary tighter
      ts |>.operations level tighter left
partial_fixpoint

def operations (ts : Tokens) (level : Level) (tighter : List Level) (left : Expr) :
    Trial Expr := do
  match ← ts.acceptOperator level with
  | some op =>
      let sign := (← get).previous ts
      let right ← ts |>.binary tighter
      ts |>.operations level tighter (.binary sign.pos op left right)
  | none => return left
partial_fixpoint

def unary (ts : Tokens) : Trial Expr := do
  match ← ts.acceptOperator unaryOps with
  | some op =>
      let sign := (← get).previous ts
      let operand ← ts |>.unary
      return .unary sign.pos op operand
  | none => ts |>.call
partial_fixpoint

def call (ts : Tokens) : Trial Expr := do
  let e ← ts |>.primary
  ts |>.postfixes e
partial_fixpoint

def postfixes (ts : Tokens) (e : Expr) : Trial Expr := do
  if ← ts.accept .leftParen then
    let (args, paren) ← ts |>.callArguments
    ts |>.postfixes (.call paren.pos e args)
  else if ← ts.accept .dot then
    let name ← ts.demand .propertyName
    ts |>.postfixes (.member name.pos e name.lexeme)
  else return e
partial_fixpoint

def callArguments (ts : Tokens) : Trial (List Expr × Token) := do
  if (← get).check ts .rightParen then
    let paren ← ts.demand .argumentsEnd
    return ([], paren)
  else
    let args ← ts |>.arguments
    let paren ← ts.demand .argumentsEnd
    return (args, paren)
partial_fixpoint

def arguments (ts : Tokens) : Trial (List Expr) := do
  let e ← ts |>.expression
  if ← ts.accept .comma then
    let es ← ts |>.arguments
    return e :: es
  else return [e]
partial_fixpoint

def primary (ts : Tokens) : Trial Expr := do
  let c ← get
  let t := c.peek ts
  match t.kind with
  | .kwFalse => ts.literal (.bool t.pos false)
  | .kwTrue => ts.literal (.bool t.pos true)
  | .kwNull => ts.literal (.null t.pos)
  | .number =>
      match Number.ofDecimal? t.lexeme with
      | some value => ts.literal (.number t.pos value)
      | none => throw (c.blame ts (.invalidNumber t.lexeme))
  | .string => ts.literal (.string t.pos (String.ofList (unquote t.lexeme.toList)))
  | .kwNew =>
      let _ ← ts.advance
      let name ← ts.demand .newClassName
      return .identifier t.pos name.lexeme
  | .kwThis => ts.literal (.identifier t.pos "this")
  | .identifier => ts.literal (.identifier t.pos t.lexeme)
  | .leftParen =>
      let _ ← ts.advance
      let e ← ts |>.expression
      let _ ← ts.demand .groupEnd
      return e
  | .endOfInput => throw (c.blame ts (.expectedExpression none))
  | _ => throw (c.blame ts (.expectedExpression (some t.lexeme)))
partial_fixpoint

end

/-! ## Clauses of statements -/

def expressionStatement : Trial Stmt := do
  let e ← ts.expression
  let _ ← ts.demand .expressionEnd
  return .expression e.pos e

def initializer : Trial (Option Expr) := do
  if ← ts.accept .equal then
    let e ← ts.expression
    return some e
  else return none

def varDeclaration : Trial Stmt := do
  let keyword := (← get).previous ts
  let name ← ts.demand .variableName
  let value ← ts.initializer
  let _ ← ts.demand .variableEnd
  return .varDecl keyword.pos name.lexeme value

def property (modifiers : Modifiers) : Trial Stmt := do
  let name ← ts.demand .memberName
  let value ← ts.initializer
  let _ ← ts.demand .propertyEnd
  return .property name.pos name.lexeme value modifiers

def parameterNames (ts : Tokens) : Trial (List String) := do
  let name ← ts.demand .parameterName
  if ← ts.accept .comma then
    let names ← ts |>.parameterNames
    return name.lexeme :: names
  else return [name.lexeme]
partial_fixpoint

def parameters : Trial (List String) := do
  if (← get).check ts .rightParen then return []
  else ts.parameterNames

def functionHead : Trial (Token × List String) := do
  let name ← ts.demand .functionName
  let _ ← ts.demand .parameters
  let params ← ts.parameters
  let _ ← ts.demand .parametersEnd
  let _ ← ts.demand .functionBody
  return (name, params)

def classHead : Trial Token := do
  let name ← ts.demand .className
  let _ ← ts.demand .classBody
  return name

def returnValue : Trial (Option Expr) := do
  let c ← get
  if c.check ts .semicolon || c.check ts .rightBrace || c.atEnd ts then return none
  else
    let e ← ts.expression
    return some e

def returnEnd : Trial Unit := do
  if ← ts.accept .semicolon then return ()
  else
    let c ← get
    if c.check ts .rightBrace || c.atEnd ts then return ()
    else throw (c.blame ts (.expected .returnEnd))

def returnStatement : Trial Stmt := do
  let keyword := (← get).previous ts
  let value ← ts.returnValue
  let _ ← ts.returnEnd
  return .returning keyword.pos value

def condition (opening closing : Expectation) : Trial Expr := do
  let _ ← ts.demand opening
  let e ← ts.expression
  let _ ← ts.demand closing
  return e

def loopStart : Trial (Option Stmt) := do
  if ← ts.accept .semicolon then return none
  else if ← ts.accept .kwVar then
    let s ← ts.varDeclaration
    return some s
  else
    let s ← ts.expressionStatement
    return some s

def loopClause (closing : TokenKind) : Trial (Option Expr) := do
  if (← get).check ts closing then return none
  else
    let e ← ts.expression
    return some e

def loopHead : Trial (Option Stmt × Option Expr × Option Expr) := do
  let _ ← ts.demand .forClauses
  let start ← ts.loopStart
  let test ← ts.loopClause .semicolon
  let _ ← ts.demand .loopConditionEnd
  let step ← ts.loopClause .rightParen
  let _ ← ts.demand .forClausesEnd
  return (start, test, step)

/-! ## Statements -/

mutual

def statement (ts : Tokens) : Trial Stmt := do
  if ← ts.accept .kwVar then ts.varDeclaration
  else if ← ts.accept .kwStatic then
    let keyword := (← get).previous ts
    let _ ← ts.demand .classAfterStatic
    ts |>.classDeclaration true keyword.pos
  else if ← ts.accept .kwClass then
    let keyword := (← get).previous ts
    ts |>.classDeclaration false keyword.pos
  else if ← ts.accept .kwFunction then ts |>.function {}
  else if ← ts.accept .kwReturn then ts.returnStatement
  else if ← ts.accept .kwIf then ts |>.branch
  else if ← ts.accept .kwWhile then ts |>.whileLoop
  else if ← ts.accept .kwFor then ts |>.forLoop
  else if ← ts.accept .leftBrace then
    let brace := (← get).previous ts
    let body ← ts |>.block
    return .block brace.pos body
  else ts.expressionStatement
partial_fixpoint

/-- A statement of a program or a block; if it is malformed, it is left out. -/
def declaration (ts : Tokens) : Walk (Option Stmt) := do
  let tried ← ts |>.statement.run
  ts.settle tried
partial_fixpoint

def statements (ts : Tokens) : Walk (List Stmt) := do
  let c ← get
  if c.check ts .rightBrace || c.atEnd ts then return []
  else
    match ← ts |>.declaration with
    | some s =>
        let others ← ts |>.statements
        return s :: others
    | none => ts |>.statements
partial_fixpoint

def block (ts : Tokens) : Trial (List Stmt) := do
  let body ← (.ok <$> (ts |>.statements) : Walk (Except Diagnostic (List Stmt)))
  let _ ← ts.accept .rightBrace
  return body
partial_fixpoint

def function (ts : Tokens) (modifiers : Modifiers) : Trial Stmt := do
  let (name, params) ← ts.functionHead
  let body ← ts |>.block
  return .function name.pos name.lexeme params body modifiers
partial_fixpoint

def modified (ts : Tokens) (modifiers : Modifiers) : Trial Stmt := do
  if ← ts.accept .kwFunction then ts |>.function modifiers
  else ts.property modifiers
partial_fixpoint

def classMember (ts : Tokens) : Trial Stmt := do
  if ← ts.accept .kwFunction then ts |>.function {}
  else if ← ts.accept .kwPublic then ts |>.modified { isPublic := true }
  else if ← ts.accept .kwPrivate then ts |>.modified {}
  else if ← ts.accept .kwStatic then ts |>.modified { isStatic := true }
  else ts.property {}
partial_fixpoint

/-- A member of a class body; if it is malformed, it is left out. -/
def member (ts : Tokens) : Walk (Option Stmt) := do
  let tried ← ts |>.classMember.run
  ts.settle tried
partial_fixpoint

def members (ts : Tokens) : Walk (List Stmt) := do
  let c ← get
  if c.check ts .rightBrace || c.atEnd ts then return []
  else
    match ← ts |>.member with
    | some s =>
        let others ← ts |>.members
        return s :: others
    | none => ts |>.members
partial_fixpoint

def classDeclaration (ts : Tokens) (isStatic : Bool) (pos : Position) : Trial Stmt := do
  let name ← ts.classHead
  let body ← (.ok <$> (ts |>.members) : Walk (Except Diagnostic (List Stmt)))
  let _ ← ts.demand .classEnd
  return .classDecl pos name.lexeme body isStatic
partial_fixpoint

def branch (ts : Tokens) : Trial Stmt := do
  let keyword := (← get).previous ts
  let test ← ts.condition .ifCondition .ifConditionEnd
  let consequent ← ts |>.statement
  let other ← ts |>.alternative
  return .branch keyword.pos test consequent other
partial_fixpoint

def alternative (ts : Tokens) : Trial (Option Stmt) := do
  if ← ts.accept .kwElse then
    let s ← ts |>.statement
    return some s
  else return none
partial_fixpoint

def whileLoop (ts : Tokens) : Trial Stmt := do
  let keyword := (← get).previous ts
  let test ← ts.condition .whileCondition .whileConditionEnd
  let body ← ts |>.statement
  return .whileLoop keyword.pos test body
partial_fixpoint

def forLoop (ts : Tokens) : Trial Stmt := do
  let keyword := (← get).previous ts
  let (start, test, step) ← ts.loopHead
  let body ← ts |>.statement
  return .forLoop keyword.pos start test step body
partial_fixpoint

end

def program (ts : Tokens) : Walk Program := do
  if (← get).atEnd ts then return []
  else
    match ← ts.declaration with
    | some s =>
        let others ← ts |>.program
        return s :: others
    | none => ts |>.program
partial_fixpoint

/-- Walks over all the tokens, from the first one on. -/
def script : Option Script :=
  (ts.program.run ⟨0, []⟩).map fun (program, c) => ⟨program, c.reports⟩

end Tokens

end Scriptlet
