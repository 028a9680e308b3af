import Scriptlet.Syntax.Basic

/-! Trees without their places. Two trees are the same up to places if they become equal once every
place is replaced by one and the same. -/

namespace Scriptlet

namespace Expr

mutual

/-- The expression with every place forgotten. -/
def erase : Expr → Expr
  | .number _ value => .number default value
  | .string _ value => .string default value
  | .bool _ value => .bool default value
  | .null _ => .null default
  | .identifier _ name => .identifier default name
  | .binary _ op left right => .binary default op left.erase right.erase
  | .unary _ op operand => .unary default op operand.erase
  | .call _ callee args => .call default callee.erase (eraseEach args)
  | .member _ object name => .member default object.erase name
  | .assign _ op target value => .assign default op target.erase value.erase

def eraseEach : List Expr → List Expr
  | [] => []
  | e :: es => e.erase :: eraseEach es

end

@[simp] theorem eraseEach_eq_map (es : List Expr) : eraseEach es = es.map erase := by
  induction es with
  | nil => rfl
  | cons e es ih => rw [eraseEach, ih, List.map_cons]

@[simp] theorem isTarget_erase (e : Expr) : e.erase.isTarget = e.isTarget := by
  cases e <;> rfl

end Expr

namespace Stmt

mutual

/-- The statement with every place forgotten. -/
def erase : Stmt → Stmt
  | .expression _ expr => .expression default expr.erase
  | .varDecl _ name initializer => .varDecl default name (initializer.map Expr.erase)
  | .returning _ value => .returning default (value.map Expr.erase)
  | .branch _ condition consequent alternative =>
      .branch default condition.erase consequent.erase (eraseOption alternative)
  | .whileLoop _ condition body => .whileLoop default condition.erase body.erase
  | .forLoop _ initializer condition step body =>
      .forLoop default (eraseOption initializer) (condition.map Expr.erase)
        (step.map Expr.erase) body.erase
  | .block _ body => .block default (eraseEach body)
  | .function _ name params body modifiers =>
      .function default name params (eraseEach body) modifiers
  | .classDecl _ name members isStatic => .classDecl default name (eraseEach members) isStatic
  | .property _ name initializer modifiers =>
      .property default name (initializer.map Expr.erase) modifiers

def eraseEach : List Stmt → List Stmt
  | [] => []
  | s :: ss => s.erase :: eraseEach ss

def eraseOption : Option Stmt → Option Stmt
  | none => none
  | some s => some s.erase

end

@[simp] theorem eraseEach_eq_map (ss : List Stmt) : eraseEach ss = ss.map erase := by
  induction ss with
  | nil => rfl
  | cons s ss ih => rw [eraseEach, ih, List.map_cons]

@[simp] theorem eraseOption_eq_map (s : Option Stmt) : eraseOption s = s.map erase := by
  cases s <;> rfl

end Stmt

def Program.erase (program : Program) : Program :=
  program.map Stmt.erase

end Scriptlet
