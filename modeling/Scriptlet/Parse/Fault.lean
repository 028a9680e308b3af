import Scriptlet.Token.Basic

/-! What can be wrong with a token list, where, and how it is reported. -/

namespace Scriptlet

/-- The tokens that a rule may insist on, by the place in the rule. -/
inductive Expectation where
  | classAfterStatic | variableName | variableEnd
  | className | classBody | classEnd | memberName | propertyEnd
  | functionName | parameters | parameterName | parametersEnd | functionBody | returnEnd
  | ifCondition | ifConditionEnd | whileCondition | whileConditionEnd
  | forClauses | loopConditionEnd | forClausesEnd
  | expressionEnd | propertyName | argumentsEnd | newClassName | groupEnd
deriving DecidableEq, Repr

namespace Expectation

def kind : Expectation → TokenKind
  | classAfterStatic => .kwClass
  | variableName | className | memberName | functionName | parameterName | propertyName
  | newClassName => .identifier
  | variableEnd | propertyEnd | returnEnd | loopConditionEnd | expressionEnd => .semicolon
  | classBody | functionBody => .leftBrace
  | classEnd => .rightBrace
  | parameters | ifCondition | whileCondition | forClauses => .leftParen
  | parametersEnd | ifConditionEnd | whileConditionEnd | forClausesEnd | argumentsEnd
  | groupEnd => .rightParen

def message : Expectation → String
  | classAfterStatic => "Expected 'class' after 'static'"
  | variableName => "Expected variable name"
  | variableEnd => "Expected ';' after variable declaration"
  | className => "Expected class name"
  | classBody => "Expected '\x7b' after class name"
  | classEnd => "Expected '\x7d' after class body"
  | memberName => "Expected member name"
  | propertyEnd => "Expected ';' after property declaration"
  | functionName => "Expected function name"
  | parameters => "Expected '(' after function name"
  | parameterName => "Expected parameter name"
  | parametersEnd => "Expected ')' after parameters"
  | functionBody => "Expected '\x7b' before function body"
  | returnEnd => "Expected ';' after return value"
  | ifCondition => "Expected '(' after 'if'"
  | ifConditionEnd => "Expected ')' after if condition"
  | whileCondition => "Expected '(' after 'while'"
  | whileConditionEnd => "Expected ')' after while condition"
  | forClauses => "Expected '(' after 'for'"
  | loopConditionEnd => "Expected ';' after loop condition"
  | forClausesEnd => "Expected ')' after for clauses"
  | expressionEnd => "Expected ';' after expression"
  | propertyName => "Expected property name after '.'"
  | argumentsEnd => "Expected ')' after arguments"
  | newClassName => "Expected class name after 'new'"
  | groupEnd => "Expected ')' after expression"

end Expectation

/-- Why a statement is rejected. -/
inductive SyntaxCause where
  | expected (what : Expectation)
  /-- No expression starts with the token found, or the tokens have come to an end. -/
  | expectedExpression (found : Option String)
  | invalidNumber (lexeme : String)
  | invalidTarget
deriving DecidableEq, Repr

def SyntaxCause.message : SyntaxCause → String
  | expected what => what.message
  | expectedExpression none => "Expected expression, found end of input"
  | expectedExpression (some lexeme) => "Expected expression, found '" ++ lexeme ++ "'"
  | invalidNumber lexeme => "Invalid number literal '" ++ lexeme ++ "'"
  | invalidTarget => "Invalid assignment target"

/-- A cause and the token that is blamed; none stands for the end of the tokens. -/
structure Fault where
  cause : SyntaxCause
  pos : Option Position
deriving DecidableEq, Repr

/-- A cause and the place that is reported. -/
structure Diagnostic where
  cause : SyntaxCause
  pos : Position
deriving DecidableEq, Repr

/-- A fault whose end of tokens stands at `last`. -/
def Fault.locate (last : Position) (fault : Fault) : Diagnostic :=
  ⟨fault.cause, fault.pos.getD last⟩

def Diagnostic.text (d : Diagnostic) : String :=
  "[line " ++ toString d.pos.line ++ ", column " ++ toString d.pos.column ++ "] Error: " ++
    d.cause.message

end Scriptlet
