import Scriptlet.Number.Decimal
import Scriptlet.Parse.Result
import Scriptlet.Syntax.Basic

/-! The grammar of expressions. Each rule is told how to read the expressions nested in it, which
have fewer tokens; `expression` closes the circle. -/

namespace Scriptlet.Parse

/-- The text between the quotes of a string literal. A last quote that a backslash takes along does
not close the literal, so it belongs to the text. -/
def unquote (lexeme : List Char) : List Char :=
  let inner := match lexeme with
    | '"' :: cs => cs
    | cs => cs
  match inner.reverse with
  | '"' :: body => if (body.takeWhile (· = '\\')).length % 2 = 0 then body.reverse else inner
  | _ => inner

/-- The operators of one precedence, with the tokens that spell them. -/
abbrev Level := List (TokenKind × BinaryOp)

def levels : List Level :=
  [[(.orOr, .or)],
   [(.andAnd, .and)],
   [(.bangEqual, .notEqual), (.equalEqual, .equal)],
   [(.greater, .greater), (.greaterEqual, .greaterEqual), (.less, .less), (.lessEqual, .lessEqual)],
   [(.minus, .sub), (.plus, .add)],
   [(.slash, .div), (.star, .mul), (.percent, .mod)]]

def unaryOp? : TokenKind → Option UnaryOp
  | .bang => some .not
  | .minus => some .negate
  | _ => none

def assignOp? : TokenKind → Option AssignOp
  | .equal => some .set
  | .plusEqual => some .add
  | .minusEqual => some .sub
  | _ => none

/-- A literal, a name, `new` with a class name, or an expression in parentheses. -/
def primary {n : Nat} (nested : Below Parsed Expr n) : UpTo Parsed Expr n
  | [], _ => .fail ⟨.expectedExpression none, none⟩ []
  | t :: ts, h =>
    match t.kind with
    | .kwFalse => .take (.bool t.pos false) t ts
    | .kwTrue => .take (.bool t.pos true) t ts
    | .kwNull => .take (.null t.pos) t ts
    | .number =>
        match Number.ofDecimal? t.lexeme with
        | some value => .take (.number t.pos value) t ts
        | none => .fail ⟨.invalidNumber t.lexeme, some t.pos⟩ (t :: ts)
    | .string => .take (.string t.pos (String.ofList (unquote t.lexeme.toList))) t ts
    | .kwNew =>
        ((expect .newClassName ts).map fun name => .identifier t.pos name.lexeme).succ
    | .kwThis => .take (.identifier t.pos "this") t ts
    | .identifier => .take (.identifier t.pos t.lexeme) t ts
    | .leftParen =>
        ((nested ts (tail_lt_of_le h)).andThen fun e rest _ =>
          ((expect .groupEnd rest).map fun _ => e).succ).succ
    | _ => .fail ⟨.expectedExpression (some t.lexeme), some t.pos⟩ (t :: ts)

/-- One or more expressions between commas. -/
def arguments {n : Nat} (nested : Below Parsed Expr n) (ts : List Token) (h : ts.length < n) :
    Parsed (List Expr) ts.length :=
  (nested ts h).andThen fun e rest shorter =>
    match rest with
    | t :: rest =>
        if t.kind = .comma then
          ((arguments nested rest (lt_of_lt_of_lt (tail_lt_of_lt shorter) h)).map
            fun es => e :: es).succ.succ
        else .done [e] (t :: rest)
    | [] => .done [e] []
termination_by ts.length
decreasing_by exact tail_lt_of_lt shorter

/-- What follows the opening parenthesis of a call: the arguments and the closing parenthesis. -/
def callArguments {n : Nat} (nested : Below Parsed Expr n) (ts : List Token) (h : ts.length < n) :
    Parsed (List Expr × Token) ts.length :=
  if startsWith .rightParen ts then (expect .argumentsEnd ts).map fun paren => ([], paren)
  else
    (arguments nested ts h).andThen fun args rest _ =>
      ((expect .argumentsEnd rest).map fun paren => (args, paren)).succ

/-- The calls and member accesses that follow a callee or an object. -/
def postfixes {n : Nat} (nested : Below Parsed Expr n) (e : Expr) (ts : List Token)
    (h : ts.length ≤ n) : Parsed Expr (ts.length + 1) :=
  match ts with
  | [] => .done e []
  | t :: ts =>
      if t.kind = .leftParen then
        ((callArguments nested ts (tail_lt_of_le h)).andThen fun (args, paren) rest shorter =>
          postfixes nested (.call paren.pos e args) rest
            (le_of_lt_of_le shorter (tail_le_of_le h))).succ.succ
      else if t.kind = .dot then
        ((expect .propertyName ts).andThen fun name rest shorter =>
          postfixes nested (.member name.pos e name.lexeme) rest
            (le_of_lt_of_le shorter (tail_le_of_le h))).succ.succ
      else .done e (t :: ts)
termination_by ts.length
decreasing_by all_goals exact Nat.lt_succ_of_lt shorter

/-- A primary expression with the calls and member accesses that follow it. -/
def call {n : Nat} (nested : Below Parsed Expr n) : UpTo Parsed Expr n := fun ts h =>
  (primary nested ts h).andThen fun e rest shorter =>
    postfixes nested e rest (le_of_lt_of_le shorter h)

/-- Any number of operators in front of a call. -/
def unary {n : Nat} (nested : Below Parsed Expr n) : UpTo Parsed Expr n
  | [], h => call nested [] h
  | t :: ts, h =>
    match unaryOp? t.kind with
    | some op => ((unary nested ts (tail_le_of_le h)).map fun e => .unary t.pos op e).succ
    | none => call nested (t :: ts) h

/-- The operators of one precedence and the operands after them, gathered to the left. -/
def operations {n : Nat} (level : Level) (operand : UpTo Parsed Expr n) (left : Expr)
    (ts : List Token) (h : ts.length ≤ n) : Parsed Expr (ts.length + 1) :=
  match ts with
  | [] => .done left []
  | t :: ts =>
    match level.lookup t.kind with
    | some op =>
        ((operand ts (tail_le_of_le h)).andThen fun right rest shorter =>
          operations level operand (.binary t.pos op left right) rest
            (le_of_lt_of_le shorter (tail_le_of_le h))).succ.succ
    | none => .done left (t :: ts)
termination_by ts.length
decreasing_by exact Nat.lt_succ_of_lt shorter

/-- Operations of the given precedences on unary expressions. -/
def binary {n : Nat} (nested : Below Parsed Expr n) : List Level → UpTo Parsed Expr n
  | [] => unary nested
  | level :: tighter => fun ts h =>
      (binary nested tighter ts h).andThen fun left rest shorter =>
        operations level (binary nested tighter) left rest (le_of_lt_of_le shorter h)

/-- An assignment, or an expression without one. The value is read before the target is judged. -/
def assignment {n : Nat} (nested : Below Parsed Expr n) : UpTo Parsed Expr n := fun ts h =>
  (binary nested levels ts h).andThen fun target rest shorter =>
    match rest with
    | t :: rest =>
        match assignOp? t.kind with
        | some op =>
            ((nested rest (lt_of_lt_of_le (tail_lt_of_lt shorter) h)).andThen fun value rest _ =>
              if target.isTarget then .done (.assign t.pos op target value) rest
              else (Parsed.fail ⟨.invalidTarget, some t.pos⟩ rest).succ).succ.succ
        | none => .done target (t :: rest)
    | [] => .done target []

def expression (ts : List Token) : Parsed Expr ts.length :=
  assignment (fun shorter _ => expression shorter) ts (length_le ts)
termination_by ts.length

end Scriptlet.Parse
