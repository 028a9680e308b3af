import Scriptlet.Proofs.Host.Likeness
import Scriptlet.Session

/-! # Like scripts run alike

Evaluation looks at the heads of trees and never at their places, which only give an error its line.
So like scripts take the same way through like interpreters: they end with the same value or the
same error up to its line, and leave the interpreters alike. -/

namespace Scriptlet

namespace Likeness

variable (L : Likeness) {α β : Type}

inductive Lines : Nat → Nat → Prop where
  | mk {p q : Position} (place : L.pos p q) : Lines p.line q.line

/-- Runs that end in the same way and leave interpreters alike. That a target is invalid is found
only among trees of any shape. -/
inductive Outcomes : EStateM.Result Halt Machine α → EStateM.Result Halt Machine α → Prop where
  | ok {a : α} {m m' : Machine} : L.Machines m m' → Outcomes (.ok a m) (.ok a m')
  | failed {cause : RuntimeCause} {line line' : Nat} {m m' : Machine} : L.Lines line line' →
      (cause = .invalidTarget → L.anyShape) → L.Machines m m' →
      Outcomes (.error (.failed ⟨cause, line⟩) m) (.error (.failed ⟨cause, line'⟩) m')
  | exhausted {m m' : Machine} : L.Machines m m' →
      Outcomes (.error .exhausted m) (.error .exhausted m')

end Likeness

open Likeness (Answers)

/-! ## Computations -/

namespace Eval

variable {L : Likeness} {α β : Type} {line line' : Nat}

/-- The value that a computation ended with, if it did not end early. -/
def answer? : EStateM.Result Halt Machine α → Option α
  | .ok a _ => some a
  | .error .. => none

theorem answer?_eq_some {r : EStateM.Result Halt Machine α} {a : α} :
    answer? r = some a ↔ ∃ m, r = .ok a m := by
  cases r <;> simp [answer?]

/-- Computations that end in the same way from like interpreters. -/
def Alike (L : Likeness) (x y : Eval α) : Prop :=
  ∀ m m', L.Machines m m' → L.Outcomes (x m) (y m')

theorem alike_pure (a : α) : Alike L (pure a) (pure a) :=
  fun _ _ h => .ok h

theorem alike_exhausted : Alike L (throw .exhausted : Eval α) (throw .exhausted) :=
  fun _ _ h => .exhausted h

theorem alike_fail {cause : RuntimeCause} (lines : L.Lines line line')
    (shape : cause = .invalidTarget → L.anyShape) :
    Alike L (fail cause line : Eval α) (fail cause line') :=
  fun _ _ h => .failed lines shape h

theorem Alike.bind {x y : Eval α} {f g : α → Eval β} (h : Alike L x y)
    (next : ∀ a, Alike L (f a) (g a)) : Alike L (x >>= f) (y >>= g) := by
  intro m m' machines
  have first := h m m' machines
  simp only [Bind.bind, EStateM.bind]
  generalize x m = r at first
  generalize y m' = r' at first
  cases first with
  | ok machines => exact next _ _ _ machines
  | failed lines shape machines => exact .failed lines shape machines
  | exhausted machines => exact .exhausted machines

theorem Alike.map {x y : Eval α} (h : Alike L x y) (f : α → β) : Alike L (f <$> x) (f <$> y) := by
  rw [map_eq_pure_bind, map_eq_pure_bind]
  exact h.bind fun a => alike_pure (f a)

theorem alike_get {f g : Machine → Eval α}
    (next : ∀ m m', L.Machines m m' → Alike L (f m) (g m')) : Alike L (get >>= f) (get >>= g) :=
  fun m m' machines => next m m' machines m m' machines

theorem alike_step {f g : Machine → α × Machine}
    (h : ∀ m m', L.Machines m m' → Answers L.Machines (f m) (g m')) :
    Alike L (step f) (step g) := by
  intro m m' machines
  have answers := h m m' machines
  show L.Outcomes (.ok (f m).1 (f m).2) (.ok (g m').1 (g m').2)
  generalize f m = r at answers
  generalize g m' = r' at answers
  obtain ⟨machines⟩ := answers
  exact .ok machines

theorem alike_onStore {f g : Store → α × Store}
    (h : ∀ s s', L.Stores s s' → Answers L.Stores (f s) (g s')) :
    Alike L (onStore f) (onStore g) := by
  refine alike_step fun m m' machines => ?_
  obtain ⟨a, s, s', eq, eq', stores⟩ := (h m.store m'.store machines.store).parts
  simp only [eq, eq']
  exact ⟨machines.withStore stores⟩

theorem alike_newFrame (parent : FrameId) : Alike L (newFrame parent) (newFrame parent) := by
  refine alike_onStore fun s s' stores => ?_
  obtain ⟨like⟩ := stores
  exact ⟨⟨like⟩⟩

theorem alike_define (f : FrameId) (name : String) (value : Value) :
    Alike L (define f name value) (define f name value) :=
  alike_onStore fun _ _ stores => ⟨stores.withScopes (·.define f name value)⟩

theorem alike_lookup (lines : L.Lines line line') (f : FrameId) (name : String) :
    Alike L (lookup f name line) (lookup f name line') := by
  refine alike_get fun m m' machines => ?_
  obtain ⟨⟨like⟩⟩ := machines
  dsimp only
  split
  · exact alike_pure _
  · exact alike_fail lines (by simp)

theorem alike_assign (lines : L.Lines line line') (f : FrameId) (name : String) (value : Value) :
    Alike L (assign f name value line) (assign f name value line') := by
  refine alike_get fun m m' machines => ?_
  obtain ⟨⟨like⟩⟩ := machines
  dsimp only
  split
  · exact alike_define _ _ _
  · exact alike_fail lines (by simp)

theorem alike_newFunction {f f' : FunctionObject} (h : L.Function f f') :
    Alike L (newFunction f) (newFunction f') :=
  alike_onStore fun _ _ stores => stores.addFunction h

theorem alike_newClass (c : ClassObject) : Alike L (newClass c) (newClass c) :=
  alike_onStore fun _ _ stores => stores.addClass c

theorem alike_instantiate (lines : L.Lines line line') (id : ClassId) :
    Alike L (instantiate id line) (instantiate id line') := by
  refine alike_get fun m m' machines => ?_
  rw [machines.store.classObject]
  dsimp only
  split
  · exact alike_fail lines (by simp)
  · exact (alike_onStore fun _ _ stores => stores.addInstance id).bind fun _ => alike_pure _

theorem Alike.repeated {round round' : β → Eval (β ⊕ α)} (h : ∀ b, Alike L (round b) (round' b))
    (n : Nat) (b : β) : Alike L (Eval.repeated round n b) (Eval.repeated round' n b) := by
  induction n generalizing b with
  | zero => exact alike_exhausted
  | succ n ih =>
      refine (h b).bind fun result => ?_
      cases result with
      | inl next => exact ih next
      | inr result => exact alike_pure result

end Eval

/-! ## Expressions and statements -/

theorem BinaryOp.apply_ne_invalidTarget (store : Store) (op : BinaryOp) (left right : Value) :
    op.apply store left right ≠ .error .invalidTarget := by
  cases op <;> simp only [apply, ne_eq, reduceCtorEq, not_false_eq_true]
  case add => unfold Value.add; split <;> simp
  case div => split <;> simp

theorem BinaryOp.apply_congr {store store' : Store} (h : store.display = store'.display)
    (op : BinaryOp) (left right : Value) :
    op.apply store left right = op.apply store' left right := by
  cases op <;> simp only [apply, Value.add, h]

namespace Evaluator

open Eval

/-- Evaluators that take like trees the same way. -/
structure Alike (L : Likeness) (ev ev' : Evaluator) : Prop where
  eval : ∀ {e e'}, L.expr e e' → ∀ f, Eval.Alike L (ev.eval e f) (ev'.eval e' f)
  exec : ∀ {s s'}, L.stmt s s' → ∀ f, Eval.Alike L (ev.exec s f) (ev'.exec s' f)

variable {L : Likeness} {ev ev' : Evaluator} {line line' : Nat}

theorem alike_evalName (lines : L.Lines line line') (f : FrameId) (name : String) :
    Eval.Alike L (evalName f name line) (evalName f name line') := by
  refine (alike_lookup lines f name).bind fun value => ?_
  cases value with
  | classRef id => exact alike_instantiate lines id
  | null | number | string | bool | functionRef | instanceRef | host => exact alike_pure _

theorem alike_evalMember (lines : L.Lines line line') (object : Value) (name : String) :
    Eval.Alike L (evalMember object name line) (evalMember object name line') := by
  refine alike_get fun m m' machines => ?_
  have stores := machines.store
  simp only [stores.instanceMember?, stores.classMember?, stores.instanceObject,
    stores.classObject]
  cases object with
  | instanceRef id =>
      dsimp only
      split
      · exact alike_pure _
      · exact alike_fail lines (by simp)
  | classRef id =>
      dsimp only
      split
      · exact alike_pure _
      · exact alike_fail lines (by simp)
  | null | number | string | bool | functionRef | host => exact alike_fail lines (by simp)

theorem alike_assignName (lines : L.Lines line line') (f : FrameId) (op : AssignOp) (name : String)
    (value : Value) :
    Eval.Alike L (assignName f op name value line) (assignName f op name value line') := by
  unfold assignName
  dsimp only
  split
  · exact (alike_assign lines f name _).bind fun _ => alike_pure _
  · exact (alike_lookup lines f name).bind fun current =>
      (alike_assign lines f name _).bind fun _ => alike_pure _

theorem alike_assignField (lines : L.Lines line line') (object : Value) (op : AssignOp)
    (name : String) (value : Value) :
    Eval.Alike L (assignField object op name value line)
      (assignField object op name value line') := by
  unfold assignField
  cases object with
  | instanceRef id =>
      refine alike_onStore fun s s' stores => ?_
      obtain ⟨like⟩ := stores
      exact ⟨⟨like⟩⟩
  | null | number | string | bool | functionRef | classRef | host =>
      exact alike_fail lines (by simp)

theorem alike_callBuiltin (builtin : Builtin) (args : List Value) :
    Eval.Alike L (callBuiltin builtin args) (callBuiltin builtin args) := by
  unfold callBuiltin
  split
  · exact alike_step fun m m' h => ⟨h.writeLine _⟩
  · refine alike_step fun m m' h => ?_
    rw [h.store.display]
    exact ⟨h.writeLine _⟩
  · refine alike_step fun m m' h => ?_
    rw [h.store.display]
    obtain ⟨stores, offers⟩ := h
    exact ⟨⟨stores, offers⟩⟩
  · exact alike_pure _
  · exact alike_pure _
  · refine alike_step fun m m' h => ?_
    rw [h.store.display]
    generalize m'.store.display _ = nickname
    obtain ⟨result, n, n', eq, eq', like⟩ := (h.loadByName nickname).parts
    simp only [eq, eq']
    exact ⟨like⟩
  · refine alike_step fun m m' h => ?_
    rw [h.store.display]
    generalize m'.store.display _ = nameOrAlias
    obtain ⟨result, n, n', eq, eq', like⟩ := (h.unload nameOrAlias).parts
    simp only [eq, eq']
    exact ⟨like⟩
  · exact alike_pure _
  · exact alike_pure _
  · refine alike_step fun m m' h => ?_
    obtain ⟨stores, offers⟩ := h
    exact ⟨⟨stores, offers⟩⟩

namespace Alike

variable (h : Alike L ev ev')
include h

theorem evalOption {e e' : Option Expr} (expr : Option.Rel L.expr e e') (f : FrameId) :
    Eval.Alike L (evalOption ev f e) (evalOption ev' f e') := by
  cases expr with
  | none => exact alike_pure _
  | some expr => exact h.eval expr f

theorem evalAll {es es' : List Expr} (exprs : List.Forall₂ L.expr es es') (f : FrameId) :
    Eval.Alike L (evalAll ev f es) (evalAll ev' f es') := by
  induction exprs with
  | nil => exact alike_pure _
  | cons expr exprs ih =>
      exact (h.eval expr f).bind fun value => ih.bind fun values => alike_pure _

theorem evalAssign {target target' value value' : Expr} (targets : L.expr target target')
    (values : L.expr value value') (shape : L.anyShape ∨ target.isTarget)
    (lines : L.Lines line line') (f : FrameId) (op : AssignOp) :
    Eval.Alike L (evalAssign ev f op target value line)
      (evalAssign ev' f op target' value' line') := by
  refine (h.eval values f).bind fun value => ?_
  cases L.expr_iff.mp targets with
  | identifier => exact alike_assignName lines f op _ value
  | member _ object =>
      exact (h.eval object f).bind fun object => alike_assignField lines object op _ value
  | number | string | bool | null | binary | unary | call | assign =>
      exact alike_fail lines fun _ => shape.resolve_right nofun

theorem execAll {ss ss' : List Stmt} (stmts : List.Forall₂ L.stmt ss ss') (f : FrameId)
    (last : Value) : Eval.Alike L (execAll ev f last ss) (execAll ev' f last ss') := by
  induction stmts generalizing last with
  | nil => exact alike_pure _
  | cons stmt stmts ih =>
      refine (h.exec stmt f).bind fun flow => ?_
      cases flow with
      | normal value => exact ih value
      | returned value => exact alike_pure _

theorem bindArguments {args args' : List Expr} (exprs : List.Forall₂ L.expr args args')
    (f frame : FrameId) (params : List String) :
    Eval.Alike L (bindArguments ev f frame params args)
      (bindArguments ev' f frame params args') := by
  induction params generalizing args args' with
  | nil => exact alike_pure _
  | cons param params ih =>
      cases exprs with
      | nil => exact alike_pure _
      | cons expr exprs =>
          exact (h.eval expr f).bind fun value =>
            (alike_define frame param value).bind fun _ => ih exprs

theorem callFunction {args args' : List Expr} (exprs : List.Forall₂ L.expr args args')
    (lines : L.Lines line line') (f : FrameId) (id : FunctionId) :
    Eval.Alike L (callFunction ev f id args line) (callFunction ev' f id args' line') := by
  refine alike_get fun m m' machines => ?_
  generalize m.store.function id = function, m'.store.function id = function',
    machines.store.function id = functions
  obtain ⟨bodies⟩ := functions
  rw [exprs.length_eq]
  dsimp only
  split
  · refine (alike_newFrame _).bind fun frame => ?_
    refine (h.bindArguments exprs f frame _).bind fun _ => ?_
    cases bodies with
    | none => exact alike_pure _
    | some body =>
        exact (alike_newFrame frame).bind fun inner =>
          (h.execAll body inner .null).bind fun flow => alike_pure _
  · exact alike_fail lines (by simp)

theorem callValue {callee callee' : Expr} {args args' : List Expr} (expr : L.expr callee callee')
    (exprs : List.Forall₂ L.expr args args') (lines : L.Lines line line') (f : FrameId) :
    Eval.Alike L (callValue ev f callee args line) (callValue ev' f callee' args' line') := by
  refine (h.eval expr f).bind fun value => ?_
  cases value with
  | functionRef id => exact h.callFunction exprs lines f id
  | null | number | string | bool | classRef | instanceRef | host =>
      exact alike_fail lines (by simp)

theorem callName {callee callee' : Expr} {args args' : List Expr} (expr : L.expr callee callee')
    (exprs : List.Forall₂ L.expr args args') (lines : L.Lines line line') (f : FrameId)
    (name : String) :
    Eval.Alike L (callName ev f callee name args line)
      (callName ev' f callee' name args' line') := by
  unfold Evaluator.callName
  split
  · exact (h.evalAll exprs f).bind fun values => alike_callBuiltin _ values
  · refine alike_get fun m m' machines => ?_
    obtain ⟨stores⟩ := machines
    dsimp only
    split
    · exact (h.evalAll exprs f).bind fun values => alike_step fun m m' h => h.callPlugin name values
    · refine alike_get fun m m' machines => ?_
      obtain ⟨stores⟩ := machines
      dsimp only
      split
      · exact (h.evalAll exprs f).bind fun values =>
          alike_step fun m m' h => h.callRegistered name values
      · exact h.callValue expr exprs lines f

/-- One level of evaluation takes like expressions the same way if the levels below do. -/
theorem evalStep {e e' : Expr} (expr : L.expr e e') (f : FrameId) :
    Eval.Alike L (evalStep ev e f) (evalStep ev' e' f) := by
  cases L.expr_iff.mp expr with
  | number | string | bool | null => exact alike_pure _
  | identifier place => exact alike_evalName ⟨place⟩ f _
  | binary place left right =>
      refine (h.eval left f).bind fun left => (h.eval right f).bind fun right => ?_
      refine alike_get fun m m' machines => ?_
      rw [BinaryOp.apply_congr machines.store.display]
      split
      · exact alike_pure _
      · rename_i cause failed
        refine alike_fail ⟨place⟩ fun invalid => ?_
        exact absurd (invalid ▸ failed) (BinaryOp.apply_ne_invalidTarget _ _ left right)
  | unary _ operand => exact (h.eval operand f).bind fun value => alike_pure _
  | call place callee args =>
      cases L.expr_iff.mp callee with
      | identifier => exact h.callName callee args ⟨place⟩ f _
      | number | string | bool | null | binary | unary | call | member | assign =>
          exact h.callValue callee args ⟨place⟩ f
  | member place object =>
      exact (h.eval object f).bind fun object => alike_evalMember ⟨place⟩ object _
  | assign place target value shape => exact h.evalAssign target value shape ⟨place⟩ f _

theorem declareMembers {members members' : List Stmt}
    (inside : List.Forall₂ L.member members members') (frame : FrameId) (c : ClassObject) :
    Eval.Alike L (declareMembers ev frame c members) (declareMembers ev' frame c members') := by
  induction inside generalizing c with
  | nil => exact alike_pure _
  | @cons _ _ members members' member inside ih =>
      -- where any shape is admitted, a function or a property may be there as a statement
      have function {p q name params body body' modifiers}
          (stmts : List.Forall₂ L.stmt body body') :
          Eval.Alike L
            (Evaluator.declareMembers ev frame c
              (.function p name params body modifiers :: members))
            (Evaluator.declareMembers ev' frame c
              (.function q name params body' modifiers :: members')) :=
        (alike_newFunction ⟨.some stmts⟩).bind fun id => ih _
      have property {p q name value value' modifiers} (values : Option.Rel L.expr value value') :
          Eval.Alike L
            (Evaluator.declareMembers ev frame c (.property p name value modifiers :: members))
            (Evaluator.declareMembers ev' frame c
              (.property q name value' modifiers :: members')) :=
        (h.evalOption values frame).bind fun value => ih _
      cases L.member_iff.mp member with
      | function _ stmts => exact function stmts
      | property _ values => exact property values
      | other _ stmt =>
          cases L.stmt_iff.mp stmt with
          | function _ stmts => exact function stmts
          | property _ values => exact property values
          | expression | varDecl | returning | branch | whileLoop | forLoop | block | classDecl =>
              exact ih c

theorem holds {e e' : Option Expr} (expr : Option.Rel L.expr e e') (f : FrameId) :
    Eval.Alike L (holds ev f e) (holds ev' f e') := by
  cases expr with
  | none => exact alike_pure _
  | some expr => exact (h.eval expr f).bind fun value => alike_pure _

theorem loopRound {test test' step step' : Option Expr} {body body' : Stmt}
    (tests : Option.Rel L.expr test test') (steps : Option.Rel L.expr step step')
    (stmt : L.stmt body body') (f : FrameId) (last : Value) :
    Eval.Alike L (loopRound ev f test step body last) (loopRound ev' f test' step' body' last) := by
  refine (h.holds tests f).bind fun goesOn => ?_
  split
  · refine (h.exec stmt f).bind fun flow => ?_
    cases flow with
    | normal value => exact ((h.evalOption steps f).map _).bind fun _ => alike_pure _
    | returned value => exact alike_pure _
  · exact alike_pure _

theorem execStep {s s' : Stmt} (stmt : L.stmt s s') (n : Nat) (f : FrameId) :
    Eval.Alike L (execStep ev n s f) (execStep ev' n s' f) := by
  cases L.stmt_iff.mp stmt with
  | expression _ expr => exact (h.eval expr f).bind fun value => alike_pure _
  | varDecl _ value | property _ value =>
      exact (h.evalOption value f).bind fun value =>
        (alike_define f _ value).bind fun _ => alike_pure _
  | returning _ value => exact (h.evalOption value f).bind fun value => alike_pure _
  | branch _ test consequent alternative =>
      refine (h.eval test f).bind fun test => ?_
      split
      · exact h.exec consequent f
      · cases alternative with
        | none => exact alike_pure _
        | some other => exact h.exec other f
  | whileLoop _ test body => exact .repeated (h.loopRound (.some test) .none body f) n _
  | forLoop _ start test step body =>
      refine (alike_newFrame f).bind fun frame => ?_
      have rounds := Eval.Alike.repeated (h.loopRound test step body frame) n .null
      cases start with
      | none => exact rounds
      | some first => exact ((h.exec first frame).map _).bind fun _ => rounds
  | block _ body => exact (alike_newFrame f).bind fun frame => h.execAll body frame .null
  | function _ body =>
      exact (alike_newFunction ⟨.some body⟩).bind fun id =>
        (alike_define f _ _).bind fun _ => alike_pure _
  | classDecl _ members =>
      refine (alike_newFrame f).bind fun frame => ?_
      refine (h.declareMembers members frame _).bind fun c => ?_
      exact (alike_newClass c).bind fun id => (alike_define f _ _).bind fun _ => alike_pure _

end Alike

/-- Like trees are taken the same way, whatever the fuel. -/
theorem alike_ofFuel (fuel : Nat) : Alike L (ofFuel fuel) (ofFuel fuel) := by
  induction fuel with
  | zero => exact ⟨fun _ _ => alike_exhausted, fun _ _ => alike_exhausted⟩
  | succ n ih => exact ⟨fun expr f => ih.evalStep expr f, fun stmt f => ih.execStep stmt n f⟩

/-! ## Watchers -/

/-- Runs expressions and statements as they are run without it, but lets a watcher act before each
of them. -/
def watched (watcher : Expr ⊕ Stmt → Eval Unit) : Nat → Evaluator
  | 0 => ofFuel 0
  | n + 1 =>
      ⟨fun e f => watcher (.inl e) >>= fun _ => evalStep (watched watcher n) e f,
        fun s f => watcher (.inr s) >>= fun _ => execStep (watched watcher n) n s f⟩

/-! ## Programs -/

def runAll (ev : Evaluator) : Program → Eval Unit
  | [] => return ()
  | s :: ss => do
      match ← ev.exec s Scopes.globals with
      | .normal _ => runAll ev ss
      | .returned _ => return ()

theorem Alike.runAll (h : Alike L ev ev') {program program' : Program}
    (stmts : List.Forall₂ L.stmt program program') :
    Eval.Alike L (runAll ev program) (runAll ev' program') := by
  induction stmts with
  | nil => exact alike_pure _
  | cons stmt stmts ih =>
      refine (h.exec stmt Scopes.globals).bind fun flow => ?_
      cases flow with
      | normal value => exact ih
      | returned value => exact alike_pure _

end Evaluator

namespace Session

variable {L : Likeness} {program program' : Program}

theorem executeAll_eq (fuel : Nat) (program : Program) :
    executeAll fuel program = (Evaluator.ofFuel fuel).runAll program := by
  induction program with
  | nil => rfl
  | cons s ss ih =>
      rw [executeAll, Evaluator.runAll, ih]
      rfl

theorem alike_executeAll (stmts : List.Forall₂ L.stmt program program') (fuel : Nat) :
    Eval.Alike L (executeAll fuel program) (executeAll fuel program') := by
  rw [executeAll_eq, executeAll_eq]
  exact (Evaluator.alike_ofFuel fuel).runAll stmts

/-- Running a program turns an error into a result, and writes it to the console. -/
theorem interpret_eq (fuel : Nat) (program : Program) (m : Machine) :
    interpret fuel program m =
      match executeAll fuel program m with
      | .ok _ m => .ok (.ok ()) m
      | .error (.failed e) m => .ok (.error e) (m.writeLine (ScriptError.stopped e).text)
      | .error .exhausted m => .error .exhausted m := by
  simp only [interpret, Eval.attempt, Bind.bind, EStateM.bind]
  cases executeAll fuel program m with
  | ok a m => rfl
  | error halt m => cases halt <;> rfl

end Session

end Scriptlet
