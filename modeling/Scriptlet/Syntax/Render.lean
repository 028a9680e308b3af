import Scriptlet.Number.Text
import Scriptlet.Syntax.Basic

/-! Syntax trees as parenthesised text, with the operator or the kind of statement in front. -/

namespace Scriptlet

mutual

def Expr.render : Expr → String
  | .number _ value => Number.treeText value
  | .string _ value => "\"" ++ value ++ "\""
  | .bool _ value => toString value
  | .null _ => "null"
  | .identifier _ name => name
  | .binary _ op left right => "(" ++ op.symbol ++ " " ++ left.render ++ " " ++ right.render ++ ")"
  | .unary _ op operand => "(" ++ op.symbol ++ " " ++ operand.render ++ ")"
  | .call _ callee args => "(call " ++ callee.render ++ Expr.renderEach args ++ ")"
  | .member _ object name => "(. " ++ object.render ++ " " ++ name ++ ")"
  | .assign _ op target value =>
      "(" ++ op.symbol ++ " " ++ target.render ++ " " ++ value.render ++ ")"

def Expr.renderEach : List Expr → String
  | [] => ""
  | e :: es => " " ++ e.render ++ Expr.renderEach es

end

/-- The text of an optional expression after a space, or nothing. -/
def Expr.renderAfter : Option Expr → String
  | none => ""
  | some e => " " ++ e.render

/-- The text of a clause of a loop; an absent one is `_`. -/
def Expr.renderClause : Option Expr → String
  | none => "_"
  | some e => e.render

mutual

/-- The text of a statement. Functions do not show their modifiers. -/
def Stmt.render : Stmt → String
  | .expression _ expr => "(; " ++ expr.render ++ ")"
  | .varDecl _ name initializer => "(var " ++ name ++ Expr.renderAfter initializer ++ ")"
  | .returning _ value => "(return" ++ Expr.renderAfter value ++ ")"
  | .branch _ condition consequent alternative =>
      "(if " ++ condition.render ++ " " ++ consequent.render ++ Stmt.renderElse alternative ++ ")"
  | .whileLoop _ condition body => "(while " ++ condition.render ++ " " ++ body.render ++ ")"
  | .forLoop _ initializer condition step body =>
      "(for " ++ Stmt.renderClause initializer ++ " " ++ Expr.renderClause condition ++ " " ++
        Expr.renderClause step ++ " " ++ body.render ++ ")"
  | .block _ body => "(block" ++ Stmt.renderEach body ++ ")"
  | .function _ name params body _ =>
      "(function " ++ name ++ " (" ++ " ".intercalate params ++ ")" ++ Stmt.renderEach body ++ ")"
  | .classDecl _ name members isStatic =>
      (if isStatic then "(static class " else "(class ") ++ name ++ Stmt.renderEach members ++ ")"
  | .property _ name initializer modifiers =>
      "(property " ++ (if modifiers.isPublic then "public" else "private") ++
        (if modifiers.isStatic then " static" else "") ++ " " ++ name ++
        Expr.renderAfter initializer ++ ")"

def Stmt.renderEach : List Stmt → String
  | [] => ""
  | s :: ss => " " ++ s.render ++ Stmt.renderEach ss

/-- The text of an alternative after a space, or nothing. -/
def Stmt.renderElse : Option Stmt → String
  | none => ""
  | some s => " " ++ s.render

/-- The text of the first clause of a loop; an absent one is `_`. -/
def Stmt.renderClause : Option Stmt → String
  | none => "_"
  | some s => s.render

end

def Program.render (program : Program) : String :=
  "\n".intercalate (program.map Stmt.render)

end Scriptlet
