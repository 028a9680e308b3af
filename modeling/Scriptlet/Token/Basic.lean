/-! Tokens of a script: their kinds, their spelling and where they stand. -/

namespace Scriptlet

/-- A place in a text; the first character stands at line 1, column 1. -/
structure Position where
  line : Nat
  column : Nat
deriving DecidableEq, Repr, Inhabited

namespace Position

def start : Position := ⟨1, 1⟩

def next (p : Position) (c : Char) : Position :=
  if c = '\n' then ⟨p.line + 1, 1⟩ else ⟨p.line, p.column + 1⟩

def advance (p : Position) (cs : List Char) : Position :=
  cs.foldl next p

/-- A place as `line:column`. -/
def text (p : Position) : String :=
  toString p.line ++ ":" ++ toString p.column

end Position

/-- What a token is. Numbers and strings keep their spelling and are read by the parser. -/
inductive TokenKind where
  | leftParen | rightParen | leftBrace | rightBrace | leftBracket | rightBracket
  | semicolon | comma | dot | colon
  | plus | minus | star | slash | percent
  | equal | equalEqual | bang | bangEqual | less | lessEqual | greater | greaterEqual
  | andAnd | orOr | plusEqual | minusEqual
  | identifier | string | number
  | kwVar | kwFunction | kwClass | kwStatic | kwPublic | kwPrivate | kwReturn
  | kwIf | kwElse | kwWhile | kwFor | kwTrue | kwFalse | kwNull | kwNew | kwThis | kwBase
  | endOfInput
deriving DecidableEq, Repr, Inhabited

def TokenKind.name : TokenKind → String
  | .leftParen => "LEFT_PAREN"
  | .rightParen => "RIGHT_PAREN"
  | .leftBrace => "LEFT_BRACE"
  | .rightBrace => "RIGHT_BRACE"
  | .leftBracket => "LEFT_BRACKET"
  | .rightBracket => "RIGHT_BRACKET"
  | .semicolon => "SEMICOLON"
  | .comma => "COMMA"
  | .dot => "DOT"
  | .colon => "COLON"
  | .plus => "PLUS"
  | .minus => "MINUS"
  | .star => "STAR"
  | .slash => "SLASH"
  | .percent => "PERCENT"
  | .equal => "EQUAL"
  | .equalEqual => "EQUAL_EQUAL"
  | .bang => "BANG"
  | .bangEqual => "BANG_EQUAL"
  | .less => "LESS"
  | .lessEqual => "LESS_EQUAL"
  | .greater => "GREATER"
  | .greaterEqual => "GREATER_EQUAL"
  | .andAnd => "AND_AND"
  | .orOr => "OR_OR"
  | .plusEqual => "PLUS_EQUAL"
  | .minusEqual => "MINUS_EQUAL"
  | .identifier => "IDENTIFIER"
  | .string => "STRING"
  | .number => "NUMBER"
  | .kwVar => "VAR"
  | .kwFunction => "FUNCTION"
  | .kwClass => "CLASS"
  | .kwStatic => "STATIC"
  | .kwPublic => "PUBLIC"
  | .kwPrivate => "PRIVATE"
  | .kwReturn => "RETURN"
  | .kwIf => "IF"
  | .kwElse => "ELSE"
  | .kwWhile => "WHILE"
  | .kwFor => "FOR"
  | .kwTrue => "TRUE"
  | .kwFalse => "FALSE"
  | .kwNull => "NULL"
  | .kwNew => "NEW"
  | .kwThis => "THIS"
  | .kwBase => "BASE"
  | .endOfInput => "EOF"

/-- The words that are not names. -/
def keywords : List (String × TokenKind) :=
  [("var", .kwVar), ("function", .kwFunction), ("class", .kwClass), ("static", .kwStatic),
   ("public", .kwPublic), ("private", .kwPrivate), ("return", .kwReturn), ("if", .kwIf),
   ("else", .kwElse), ("while", .kwWhile), ("for", .kwFor), ("true", .kwTrue),
   ("false", .kwFalse), ("null", .kwNull), ("new", .kwNew), ("this", .kwThis), ("base", .kwBase)]

/-- The kind of a word that is spelled exactly like a keyword. -/
def keyword? (word : String) : Option TokenKind :=
  keywords.lookup word

/-- A kind of token, the characters that spell it, and the place of the first of them. -/
structure Token where
  kind : TokenKind
  lexeme : String
  pos : Position
deriving DecidableEq, Repr, Inhabited

def Token.text (t : Token) : String :=
  t.kind.name ++ " " ++ t.lexeme ++ " [" ++ t.pos.text ++ "]"

end Scriptlet
