import Scriptlet.Syntax.Basic

/-! Trees that a script can be written for. The types of trees allow more: assignments to anything,
properties outside of classes, modifiers on any function, and an `else` that would be taken by
another branch. -/

namespace Scriptlet

namespace Expr

mutual

/-- Every assignment has a name or a member as its target. -/
def isWellFormed : Expr → Bool
  | .number .. | .string .. | .bool .. | .null _ | .identifier .. => true
  | .binary _ _ left right => left.isWellFormed && right.isWellFormed
  | .unary _ _ operand => operand.isWellFormed
  | .call _ callee args => callee.isWellFormed && areWellFormed args
  | .member _ object _ => object.isWellFormed
  | .assign _ _ target value => target.isTarget && target.isWellFormed && value.isWellFormed

@[inherit_doc isWellFormed]
def areWellFormed : List Expr → Bool
  | [] => true
  | e :: es => e.isWellFormed && areWellFormed es

end

end Expr

namespace Stmt

def isLoopStart : Stmt → Bool
  | .varDecl .. | .expression .. => true
  | _ => false

mutual

/-- A statement outside of classes: it is no property, and a function has no modifiers. -/
def isWellFormed : Stmt → Bool
  | .expression _ expr => expr.isWellFormed
  | .varDecl _ _ initializer => initializer.all Expr.isWellFormed
  | .returning _ value => value.all Expr.isWellFormed
  | .branch _ condition consequent alternative =>
      condition.isWellFormed && consequent.isWellFormed && isWellFormedOption alternative
  | .whileLoop _ condition body => condition.isWellFormed && body.isWellFormed
  | .forLoop _ initializer condition step body =>
      initializer.all isLoopStart && isWellFormedOption initializer &&
        condition.all Expr.isWellFormed && step.all Expr.isWellFormed && body.isWellFormed
  | .block _ body => areWellFormed body
  | .function _ _ _ body modifiers => modifiers = {} && areWellFormed body
  | .classDecl _ _ members _ => areMembers members
  | .property .. => false

/-- A member of a class: a function or a property, and not both static and public. -/
def isMember : Stmt → Bool
  | .function _ _ _ body modifiers =>
      !(modifiers.isStatic && modifiers.isPublic) && areWellFormed body
  | .property _ _ initializer modifiers =>
      !(modifiers.isStatic && modifiers.isPublic) && initializer.all Expr.isWellFormed
  | _ => false

@[inherit_doc isWellFormed]
def areWellFormed : List Stmt → Bool
  | [] => true
  | s :: ss => s.isWellFormed && areWellFormed ss

@[inherit_doc isMember]
def areMembers : List Stmt → Bool
  | [] => true
  | s :: ss => s.isMember && areMembers ss

@[inherit_doc isWellFormed]
def isWellFormedOption : Option Stmt → Bool
  | none => true
  | some s => s.isWellFormed

end

/-- Whether an `else` behind the statement would be taken by a branch at its end. -/
def takesElse : Stmt → Bool
  | .branch _ _ _ none => true
  | .branch _ _ _ (some alternative) => alternative.takesElse
  | .whileLoop _ _ body | .forLoop _ _ _ _ body => body.takesElse
  | _ => false

mutual

/-- No `else` is taken by a branch in front of it that it does not belong to. -/
def keepsElse : Stmt → Bool
  | .branch _ _ consequent alternative =>
      (alternative.isNone || !consequent.takesElse) && consequent.keepsElse &&
        keepsElseOption alternative
  | .whileLoop _ _ body | .forLoop _ _ _ _ body => body.keepsElse
  | .block _ body | .function _ _ _ body _ => keepElse body
  | .classDecl _ _ members _ => keepElse members
  | _ => true

@[inherit_doc keepsElse]
def keepElse : List Stmt → Bool
  | [] => true
  | s :: ss => s.keepsElse && keepElse ss

@[inherit_doc keepsElse]
def keepsElseOption : Option Stmt → Bool
  | none => true
  | some s => s.keepsElse

end

end Stmt

def Program.isWellFormed (program : Program) : Bool :=
  Stmt.areWellFormed program

/-- A program in which every `else` belongs to the nearest branch in front of it. -/
def Program.keepsElse (program : Program) : Bool :=
  Stmt.keepElse program

end Scriptlet
