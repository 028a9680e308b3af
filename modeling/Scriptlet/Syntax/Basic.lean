import Scriptlet.Token.Basic

/-! Syntax trees of scripts. Every node carries a place in the source, on which its meaning does not
depend. -/

namespace Scriptlet

inductive BinaryOp where
  | mul | div | mod | add | sub
  | less | lessEqual | greater | greaterEqual | equal | notEqual
  | and | or
deriving DecidableEq, Repr

inductive UnaryOp where
  | negate | not
deriving DecidableEq, Repr

/-- Plain assignment, and assignment of a sum or a difference. -/
inductive AssignOp where
  | set | add | sub
deriving DecidableEq, Repr

/-- How an operator is written. -/
def BinaryOp.symbol : BinaryOp → String
  | .mul => "*"
  | .div => "/"
  | .mod => "%"
  | .add => "+"
  | .sub => "-"
  | .less => "<"
  | .lessEqual => "<="
  | .greater => ">"
  | .greaterEqual => ">="
  | .equal => "=="
  | .notEqual => "!="
  | .and => "&&"
  | .or => "||"

@[inherit_doc BinaryOp.symbol]
def UnaryOp.symbol : UnaryOp → String
  | .negate => "-"
  | .not => "!"

@[inherit_doc BinaryOp.symbol]
def AssignOp.symbol : AssignOp → String
  | .set => "="
  | .add => "+="
  | .sub => "-="

/-- Expressions. An assignment is meant to have a name or a member as its target. -/
inductive Expr where
  | number (pos : Position) (value : Float)
  | string (pos : Position) (value : String)
  | bool (pos : Position) (value : Bool)
  | null (pos : Position)
  | identifier (pos : Position) (name : String)
  | binary (pos : Position) (op : BinaryOp) (left right : Expr)
  | unary (pos : Position) (op : UnaryOp) (operand : Expr)
  | call (pos : Position) (callee : Expr) (args : List Expr)
  | member (pos : Position) (object : Expr) (name : String)
  | assign (pos : Position) (op : AssignOp) (target value : Expr)
deriving Inhabited

/-- What a declaration in a class may carry in front. -/
structure Modifiers where
  isStatic : Bool := false
  isPublic : Bool := false
deriving DecidableEq, Repr, Inhabited

/-- Statements. The members of a class are meant to be functions and properties, and a property to
stand in a class. -/
inductive Stmt where
  | expression (pos : Position) (expr : Expr)
  | varDecl (pos : Position) (name : String) (initializer : Option Expr)
  | returning (pos : Position) (value : Option Expr)
  | branch (pos : Position) (condition : Expr) (consequent : Stmt) (alternative : Option Stmt)
  | whileLoop (pos : Position) (condition : Expr) (body : Stmt)
  | forLoop (pos : Position) (initializer : Option Stmt) (condition step : Option Expr)
      (body : Stmt)
  | block (pos : Position) (body : List Stmt)
  | function (pos : Position) (name : String) (params : List String) (body : List Stmt)
      (modifiers : Modifiers)
  | classDecl (pos : Position) (name : String) (members : List Stmt) (isStatic : Bool)
  | property (pos : Position) (name : String) (initializer : Option Expr) (modifiers : Modifiers)
deriving Inhabited

/-- The statements of a script, in order. -/
abbrev Program := List Stmt

def Expr.pos : Expr → Position
  | .number pos _ | .string pos _ | .bool pos _ | .null pos | .identifier pos _
  | .binary pos .. | .unary pos .. | .call pos .. | .member pos .. | .assign pos .. => pos

def Stmt.pos : Stmt → Position
  | .expression pos _ | .varDecl pos .. | .returning pos _ | .branch pos .. | .whileLoop pos ..
  | .forLoop pos .. | .block pos _ | .function pos .. | .classDecl pos .. | .property pos .. => pos

def Expr.isTarget : Expr → Bool
  | .identifier .. | .member .. => true
  | _ => false

end Scriptlet
