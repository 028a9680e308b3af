import Scriptlet.Syntax.Basic

/-! # Names that are called

A call whose callee is a name may be dispatched by that name, and any other call is not. So the
names that stand at callees bound which functions of the host a tree can come to. -/

namespace Scriptlet

namespace Expr

/-- The name that a call of this expression may be dispatched by. -/
def callee? : Expr → Option String
  | .identifier _ name => some name
  | _ => none

mutual

/-- The names that stand at callees, in the expression or its parts. -/
def callees : Expr → List String
  | .number .. | .string .. | .bool .. | .null _ | .identifier .. => []
  | .binary _ _ left right => left.callees ++ right.callees
  | .unary _ _ operand => operand.callees
  | .call _ callee args => callee.callee?.toList ++ (callee.callees ++ calleesEach args)
  | .member _ object _ => object.callees
  | .assign _ _ target value => target.callees ++ value.callees

@[inherit_doc callees]
def calleesEach : List Expr → List String
  | [] => []
  | e :: es => e.callees ++ calleesEach es

end

def calleesOption : Option Expr → List String
  | some e => e.callees
  | none => []

/-- Only the given names stand at callees. -/
def CallsOnly (calls : String → Prop) (e : Expr) : Prop :=
  ∀ name ∈ e.callees, calls name

section

variable {calls : String → Prop} {p : Position}

theorem forall_mem_calleesEach {es : List Expr} :
    (∀ name ∈ calleesEach es, calls name) ↔ ∀ e ∈ es, e.CallsOnly calls := by
  induction es with
  | nil => simp [calleesEach]
  | cons e es ih => simp [calleesEach, or_imp, forall_and, ih, CallsOnly]

theorem forall_mem_calleesOption {e : Option Expr} :
    (∀ name ∈ calleesOption e, calls name) ↔ ∀ a ∈ e, a.CallsOnly calls := by
  cases e <;> simp [calleesOption, CallsOnly]

@[simp] theorem callsOnly_binary {op : BinaryOp} {left right : Expr} :
    (binary p op left right).CallsOnly calls ↔ left.CallsOnly calls ∧ right.CallsOnly calls := by
  simp [CallsOnly, callees, or_imp, forall_and]

@[simp] theorem callsOnly_unary {op : UnaryOp} {operand : Expr} :
    (unary p op operand).CallsOnly calls ↔ operand.CallsOnly calls := by
  simp [CallsOnly, callees]

@[simp] theorem callsOnly_call {callee : Expr} {args : List Expr} :
    (call p callee args).CallsOnly calls ↔
      (∀ name ∈ callee.callee?, calls name) ∧ callee.CallsOnly calls ∧
        ∀ e ∈ args, e.CallsOnly calls := by
  rw [← forall_mem_calleesEach]
  simp [CallsOnly, callees, or_imp, forall_and]

@[simp] theorem callsOnly_member {object : Expr} {name : String} :
    (member p object name).CallsOnly calls ↔ object.CallsOnly calls := by
  simp [CallsOnly, callees]

@[simp] theorem callsOnly_assign {op : AssignOp} {target value : Expr} :
    (assign p op target value).CallsOnly calls ↔
      target.CallsOnly calls ∧ value.CallsOnly calls := by
  simp [CallsOnly, callees, or_imp, forall_and]

end

end Expr

namespace Stmt

open Scriptlet.Expr (calleesOption forall_mem_calleesOption)

mutual

/-- The names that stand at callees, in the statement or its parts. The bodies of functions and the
members of classes are parts. -/
def callees : Stmt → List String
  | .expression _ expr => expr.callees
  | .varDecl _ _ initializer => calleesOption initializer
  | .returning _ value => calleesOption value
  | .branch _ condition consequent alternative =>
      condition.callees ++ (consequent.callees ++ calleesOf alternative)
  | .whileLoop _ condition body => condition.callees ++ body.callees
  | .forLoop _ initializer condition step body =>
      calleesOf initializer ++ (calleesOption condition ++ (calleesOption step ++ body.callees))
  | .block _ body => calleesEach body
  | .function _ _ _ body _ => calleesEach body
  | .classDecl _ _ members _ => calleesEach members
  | .property _ _ initializer _ => calleesOption initializer

@[inherit_doc callees]
def calleesEach : List Stmt → List String
  | [] => []
  | s :: ss => s.callees ++ calleesEach ss

def calleesOf : Option Stmt → List String
  | some s => s.callees
  | none => []

end

/-- Only the given names stand at callees. -/
def CallsOnly (calls : String → Prop) (s : Stmt) : Prop :=
  ∀ name ∈ s.callees, calls name

variable {calls : String → Prop} {p : Position}

theorem forall_mem_calleesEach {ss : List Stmt} :
    (∀ name ∈ calleesEach ss, calls name) ↔ ∀ s ∈ ss, s.CallsOnly calls := by
  induction ss with
  | nil => simp [calleesEach]
  | cons s ss ih => simp [calleesEach, or_imp, forall_and, ih, CallsOnly]

theorem forall_mem_calleesOf {s : Option Stmt} :
    (∀ name ∈ calleesOf s, calls name) ↔ ∀ a ∈ s, a.CallsOnly calls := by
  cases s <;> simp [calleesOf, CallsOnly]

@[simp] theorem callsOnly_expression {e : Expr} :
    (expression p e).CallsOnly calls ↔ e.CallsOnly calls := by
  simp [CallsOnly, callees, Expr.CallsOnly]

@[simp] theorem callsOnly_varDecl {name : String} {value : Option Expr} :
    (varDecl p name value).CallsOnly calls ↔ ∀ e ∈ value, e.CallsOnly calls :=
  forall_mem_calleesOption

@[simp] theorem callsOnly_returning {value : Option Expr} :
    (returning p value).CallsOnly calls ↔ ∀ e ∈ value, e.CallsOnly calls :=
  forall_mem_calleesOption

@[simp] theorem callsOnly_branch {test : Expr} {s : Stmt} {other : Option Stmt} :
    (branch p test s other).CallsOnly calls ↔
      test.CallsOnly calls ∧ s.CallsOnly calls ∧ ∀ s ∈ other, s.CallsOnly calls := by
  rw [← forall_mem_calleesOf]
  simp [CallsOnly, callees, or_imp, forall_and, Expr.CallsOnly]

@[simp] theorem callsOnly_whileLoop {test : Expr} {body : Stmt} :
    (whileLoop p test body).CallsOnly calls ↔ test.CallsOnly calls ∧ body.CallsOnly calls := by
  simp [CallsOnly, callees, or_imp, forall_and, Expr.CallsOnly]

@[simp] theorem callsOnly_forLoop {start : Option Stmt} {test step : Option Expr} {body : Stmt} :
    (forLoop p start test step body).CallsOnly calls ↔
      (∀ s ∈ start, s.CallsOnly calls) ∧ (∀ e ∈ test, e.CallsOnly calls) ∧
        (∀ e ∈ step, e.CallsOnly calls) ∧ body.CallsOnly calls := by
  rw [← forall_mem_calleesOf, ← forall_mem_calleesOption, ← forall_mem_calleesOption]
  simp [CallsOnly, callees, or_imp, forall_and]

@[simp] theorem callsOnly_block {body : List Stmt} :
    (block p body).CallsOnly calls ↔ ∀ s ∈ body, s.CallsOnly calls :=
  forall_mem_calleesEach

@[simp] theorem callsOnly_function {name : String} {params : List String} {body : List Stmt}
    {modifiers : Modifiers} :
    (function p name params body modifiers).CallsOnly calls ↔ ∀ s ∈ body, s.CallsOnly calls :=
  forall_mem_calleesEach

@[simp] theorem callsOnly_classDecl {name : String} {members : List Stmt} {isStatic : Bool} :
    (classDecl p name members isStatic).CallsOnly calls ↔
      ∀ s ∈ members, s.CallsOnly calls :=
  forall_mem_calleesEach

@[simp] theorem callsOnly_property {name : String} {value : Option Expr}
    {modifiers : Modifiers} :
    (property p name value modifiers).CallsOnly calls ↔ ∀ e ∈ value, e.CallsOnly calls :=
  forall_mem_calleesOption

end Stmt

def Program.callees (program : Program) : List String :=
  Stmt.calleesEach program

end Scriptlet
