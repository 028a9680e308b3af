import Scriptlet.Text.Alphabetic
import Scriptlet.Text.Blank
import Scriptlet.Text.Numeric
import Scriptlet.Token.Basic

/-! Cutting a text into tokens. Every text has a token list: blanks and comments are passed over,
and a character that starts nothing else is a name of its own. -/

namespace Scriptlet

namespace Token

/-- The tokens that are one character, whatever follows. -/
def delimiters : List (Char × TokenKind) :=
  [('(', .leftParen), (')', .rightParen), ('\x7b', .leftBrace), ('\x7d', .rightBrace),
   ('[', .leftBracket), (']', .rightBracket), (';', .semicolon), (',', .comma), ('.', .dot),
   (':', .colon), ('*', .star), ('%', .percent)]

/-- A character that makes one kind of token with a certain second character and another kind
without it. -/
structure Operator where
  first : Char
  second : Char
  double : TokenKind
  single : TokenKind

/-- The operators of one or two characters. A lone `&` or `|` is a name. -/
def operators : List Operator :=
  [⟨'+', '=', .plusEqual, .plus⟩, ⟨'-', '=', .minusEqual, .minus⟩,
   ⟨'=', '=', .equalEqual, .equal⟩, ⟨'!', '=', .bangEqual, .bang⟩,
   ⟨'<', '=', .lessEqual, .less⟩, ⟨'>', '=', .greaterEqual, .greater⟩,
   ⟨'&', '&', .andAnd, .identifier⟩, ⟨'|', '|', .orOr, .identifier⟩]

def isWordStart (c : Char) : Bool :=
  Text.isAlphabetic c || c = '_'

def isWordPart (c : Char) : Bool :=
  Text.isAlphabetic c || Text.isNumeric c || c = '_'

def isNumberPart (c : Char) : Bool :=
  c.isDigit || c = '.'

/-- The length of what follows the opening quote of a string: up to the closing quote, or all of it
if there is none. A backslash takes the next character along. -/
def stringTail : List Char → Nat
  | [] => 0
  | '"' :: _ => 1
  | '\\' :: _ :: cs => stringTail cs + 2
  | _ :: cs => stringTail cs + 1

/-- The first piece of a text: its kind, which a gap has not, and how many characters follow its
first one. -/
structure Piece where
  kind : Option TokenKind
  tail : Nat

/-- The piece that starts with `c` in front of `cs`. -/
def piece (c : Char) (cs : List Char) : Piece :=
  match delimiters.lookup c with
  | some kind => ⟨some kind, 0⟩
  | none =>
    match operators.find? (·.first = c) with
    | some op => if cs.head? = some op.second then ⟨some op.double, 1⟩ else ⟨some op.single, 0⟩
    | none =>
      if c = '/' then
        if cs.head? = some '/' then ⟨none, (cs.takeWhile (· ≠ '\n')).length⟩ else ⟨some .slash, 0⟩
      else if c = '"' then ⟨some .string, stringTail cs⟩
      else if c.isDigit then ⟨some .number, (cs.takeWhile isNumberPart).length⟩
      else if isWordStart c then
        let tail := cs.takeWhile isWordPart
        ⟨some ((keyword? (String.ofList (c :: tail))).getD .identifier), tail.length⟩
      else if Text.isBlank c then ⟨none, 0⟩
      else ⟨some .identifier, 0⟩

/-- The tokens of a text whose first character stands at `pos`. The last one marks its end. -/
def scanFrom (pos : Position) : List Char → List Token
  | [] => [⟨.endOfInput, "", pos⟩]
  | c :: cs =>
      let p := piece c cs
      let text := c :: cs.take p.tail
      let rest := scanFrom (pos.advance text) (cs.drop p.tail)
      match p.kind with
      | none => rest
      | some kind => ⟨kind, String.ofList text, pos⟩ :: rest
termination_by cs => cs.length
decreasing_by simp only [List.length_cons, List.length_drop]; omega

def scan (source : String) : List Token :=
  scanFrom .start source.toList

end Token

end Scriptlet
