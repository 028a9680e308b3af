import Scriptlet.Proofs.Eval.Places
import Scriptlet.Proofs.Session.Actions

/-! # Improper trees are never run

The types of trees allow more than a script can say: assignments to anything, properties outside of
classes, classes with any statements in them. Nothing of that kind is ever read, so none is ever
run, by a script or by a function that was kept from an earlier one. -/

namespace Scriptlet

/-! ## Improper trees -/

/-- An assignment to what is neither a name nor a member. -/
def Expr.isImproper : Expr → Bool
  | .assign _ _ target _ => !target.isTarget
  | _ => false

def Stmt.isDeclaration : Stmt → Bool
  | .function .. | .property .. => true
  | _ => false

/-- A property that is run by itself, or a class in which something else than functions and
properties is passed over. -/
def Stmt.isImproper : Stmt → Bool
  | .property .. => true
  | .classDecl _ _ members _ => !members.all isDeclaration
  | _ => false

namespace Likeness

variable {L : Likeness}

theorem isImproper_of_expr (shape : ¬ L.anyShape) {e e' : Expr} (h : L.expr e e') :
    e.isImproper = false := by
  cases L.expr_iff.mp h with
  | assign _ _ _ isTarget => simp [Expr.isImproper, isTarget.resolve_left shape]
  | number | string | bool | null | identifier | binary | unary | call | member => rfl

theorem isDeclaration_of_member (shape : ¬ L.anyShape) {s s' : Stmt} (h : L.member s s') :
    s.isDeclaration := by
  cases L.member_iff.mp h with
  | function | property => rfl
  | other any => exact absurd any shape

theorem all_isDeclaration (shape : ¬ L.anyShape) {members members' : List Stmt}
    (h : List.Forall₂ L.member members members') : members.all Stmt.isDeclaration := by
  induction h with
  | nil => rfl
  | cons member _ ih => simp [isDeclaration_of_member shape member, ih]

theorem isImproper_of_stmt (shape : ¬ L.anyShape) {s s' : Stmt} (h : L.stmt s s') :
    s.isImproper = false := by
  cases L.stmt_iff.mp h with
  | property _ _ any => exact absurd any shape
  | classDecl _ inside => simp [Stmt.isImproper, all_isDeclaration shape inside]
  | expression | varDecl | returning | branch | whileLoop | forLoop | block | function => rfl

end Likeness

/-! ## Alarms -/

namespace Evaluator

variable {L : Likeness}

/-- Sets off an alarm in front of improper trees. -/
def ring (alarm : Eval Unit) (tree : Expr ⊕ Stmt) : Eval Unit :=
  if tree.elim Expr.isImproper Stmt.isImproper then alarm else pure ()

/-- Runs expressions and statements as they are run without alarms, but sets off an alarm before
each improper one. The alarm may do anything. -/
def alarmed (alarm : Eval Unit) : Nat → Evaluator :=
  watched (ring alarm)

/-- No alarm is set off by trees that a script can be written for. -/
theorem alike_alarmed (shape : ¬ L.anyShape) (alarm : Eval Unit) (fuel : Nat) :
    Alike L (alarmed alarm fuel) (ofFuel fuel) := by
  have quiet (tree : Expr ⊕ Stmt) (proper : tree.elim Expr.isImproper Stmt.isImproper = false) :
      ring alarm tree = pure () := by
    rw [ring, proper, if_neg Bool.false_ne_true]
  unfold alarmed
  induction fuel with
  | zero => exact alike_ofFuel 0
  | succ n ih =>
      refine ⟨fun {e e'} expr f => ?_, fun {s s'} stmt f => ?_⟩
      · simp only [watched, quiet (.inl e) (L.isImproper_of_expr shape expr)]
        exact ih.evalStep expr f
      · simp only [watched, quiet (.inr s) (L.isImproper_of_stmt shape stmt)]
        exact ih.execStep stmt n f

end Evaluator

/-! ## What was read -/

/-- The statement was read from tokens, be it in spite of faults elsewhere. -/
def Stmt.IsRead (s : Stmt) : Prop :=
  ∃ ts, s ∈ (Script.ofTokens ts).program

/-- The expression was read from tokens, as a statement of its own. -/
def Expr.IsRead (e : Expr) : Prop :=
  ∃ pos, (Stmt.expression pos e).IsRead

/-- The function is a stub, or it was declared in what was read. -/
def FunctionObject.IsRead (f : FunctionObject) : Prop :=
  ∀ body ∈ f.body, ∃ pos name params modifiers,
    (Stmt.function pos name params body modifiers).IsRead

def Plugin.Reads (p : Plugin) : Prop :=
  ∀ name f, SetupStep.define name f ∈ p.setup → f.IsRead

def Position.anywhere : Position → Prop := fun _ => True

open Position (anywhere)

theorem Stmt.IsRead.lies {s : Stmt} (h : s.IsRead) : s.Lies anywhere := by
  obtain ⟨ts, mem⟩ := h
  exact Script.program_lies (fun _ _ => trivial) s mem

theorem Expr.IsRead.lies {e : Expr} (h : e.IsRead) : e.Lies anywhere := by
  obtain ⟨pos, read⟩ := h
  exact (Stmt.lies_expression.mp read.lies).2

theorem FunctionObject.IsRead.body {f : FunctionObject} (h : f.IsRead) :
    ∀ body ∈ f.body, (Likeness.exact anywhere).Body body := by
  intro body mem
  obtain ⟨pos, name, params, modifiers, read⟩ := h body mem
  exact Likeness.stmts_exact (Stmt.lies_function.mp read.lies).2.1

theorem Plugin.Reads.body {p : Plugin} (h : p.Reads) :
    ∀ body, p.Makes body → (Likeness.exact anywhere).Body body := by
  rintro body ⟨name, f, mem, has⟩
  exact (h name f mem).body body has

theorem Eval.LeavesLying.after {α : Type} {places : Position → Prop} {x : Eval α} {m : Machine}
    (h : LeavesLying places (x m)) : (x.after m).Lies places := by
  unfold Eval.after
  generalize x m = r at h
  match r, h with
  | .ok _ _, h | .error .exhausted _, h => exact h
  | .error (.failed _) _, h => exact h.1

namespace Session

open Machine Likeness

/-- Functions that are defined are stubs, or were declared in what was read. -/
def Operation.Reads : Operation → Prop
  | load p | offer _ p => p.Reads
  | defineFunction _ f => f.IsRead
  | loadByName .. | unload .. | run .. | register .. | unregister .. => True

/-- Nothing but what was read is run, now or later. -/
def Action.Reads : Action → Prop
  | operation o => o.Reads
  | interpret _ program => ∀ s ∈ program, s.IsRead
  | execute _ s _ => s.IsRead
  | evaluate _ e _ => e.IsRead
  | _ => True

variable {m : Machine}

theorem lies_interpret {places : Position → Prop} {program : Program} (machine : m.Lies places)
    (lies : ∀ s ∈ program, s.Lies places) (fuel : Nat) :
    ((interpret fuel program).after m).Lies places := by
  have left := leavesLying_executeAll machine lies fuel
  unfold Eval.after
  rw [interpret_eq]
  generalize executeAll fuel program m = r at left
  match r, left with
  | .ok _ _, left | .error .exhausted _, left => exact left
  | .error (.failed _) _, left => exact left.1.writeLine _

theorem lies_operation (machine : m.Lies anywhere) {o : Operation} (reads : o.Reads) :
    (o.apply m).Lies anywhere := by
  cases o with
  | load p => exact (machine.load reads.body).related
  | loadByName nickname => exact (machine.loadByName nickname).related
  | unload nameOrAlias => exact (machine.unload nameOrAlias).related
  | run fuel source =>
      rw [Operation.apply, after_run]
      exact lies_interpret machine (Script.program_lies fun _ _ => trivial) fuel
  | defineFunction name f => exact (machine.defineFunction name (function_self reads.body)).related
  | offer nickname p => exact machine.offer nickname reads.body
  | register | unregister => exact ⟨machine.store, machine.offers⟩

theorem buildAll_alike {L : Likeness} {s s' : Store} (h : L.Stores s s')
    (designs : List Blueprint) :
    Answers L.Stores (Blueprint.buildAll designs s) (Blueprint.buildAll designs s') := by
  induction designs generalizing s s' with
  | nil => exact ⟨h⟩
  | cons design designs ih =>
      obtain ⟨value, t, t', eq, eq', like⟩ := (Stores.build design h).parts
      simp only [Blueprint.buildAll, eq, eq']
      obtain ⟨values, t, t', eq, eq', like⟩ := (ih like).parts
      simp only [eq, eq']
      exact ⟨like⟩

theorem lies_apply (machine : m.Lies anywhere) {a : Action} (reads : a.Reads) :
    (a.apply m).Lies anywhere := by
  have build (design : Blueprint) {s : Store} (h : (exact anywhere).Stores s s) :
      (exact anywhere).Stores (design.build s).2 (design.build s).2 :=
    (Stores.build design h).related
  have store := machine.store
  cases a with
  | operation o => exact lies_operation machine reads
  | interpret fuel program => exact lies_interpret machine (fun s mem => (reads s mem).lies) fuel
  | execute fuel s f =>
      have run := (Evaluator.alike_ofFuel (L := exact anywhere) fuel).exec ⟨reads.lies, rfl⟩ f
      exact (run m m machine).leavesLying.after
  | evaluate fuel e f =>
      have run := (Evaluator.alike_ofFuel (L := exact anywhere) fuel).eval ⟨reads.lies, rfl⟩ f
      exact (run m m machine).leavesLying.after
  | root => exact machine.withStore (store.withScopes (·.root.2))
  | define f name design =>
      exact machine.withStore ((build design store).withScopes
        (·.define f name (design.build m.store).1))
  | remove f name => exact machine.withStore (store.withScopes (·.remove f name))
  | setField object name design =>
      have built := build design (build object store)
      simp only [Action.apply]
      split
      · exact machine.withStore (built.setField _ _ _)
      · exact machine.withStore built
  | register resource entry => exact ⟨build resource store, machine.offers⟩
  | callPlugin name args =>
      exact ((machine.withStore (buildAll_alike store args).related).callPlugin name _).related
  | callRegistered name args =>
      exact ((machine.withStore (buildAll_alike store args).related).callRegistered name _).related

theorem lies_performed (console : Console) {actions : List Action}
    (reads : ∀ a ∈ actions, a.Reads) : (performed console actions).Lies anywhere := by
  have run : ∀ m : Machine, m.Lies anywhere → (actions.foldl Action.apply m).Lies anywhere := by
    induction actions with
    | nil => exact fun _ h => h
    | cons a actions ih =>
        obtain ⟨first, rest⟩ := List.forall_mem_cons.mp reads
        exact fun m h => ih rest _ (lies_apply h first)
  exact run _ (lies_fresh console)

/-- Every token list is read to a well-formed program, also if statements are rejected. In every
session in which nothing else is run, no program raises that a target is invalid, and none gets to
an improper tree: whatever an alarm in front of those would do, it makes no difference. Functions of
the host are assumed to build no functions. -/
theorem improper_trees_unreachable :
    (∀ ts : List Token, (Script.ofTokens ts).program.isWellFormed) ∧
    ∀ (console : Console) (actions : List Action), (∀ a ∈ actions, a.Reads) →
      ∀ (fuel : Nat) (program : Program), (∀ s ∈ program, s.IsRead) →
        let m := performed console actions
        (∀ e n, executeAll fuel program m = .error (.failed e) n → e.cause ≠ .invalidTarget) ∧
        ∀ alarm : Eval Unit,
          (Evaluator.alarmed alarm fuel).runAll program m = executeAll fuel program m := by
  constructor
  · intro ts
    have lies : ∀ s ∈ (Script.ofTokens ts).program, s.Lies anywhere :=
      Script.program_lies fun _ _ => trivial
    exact Stmt.areWellFormed_iff.mpr fun s mem => (lies s mem).1
  · intro console actions reads fuel program read m
    have machine : m.Lies anywhere := lies_performed console reads
    have lies : ∀ s ∈ program, s.Lies anywhere := fun s mem => (read s mem).lies
    refine ⟨fun e n failed => ?_, fun alarm => ?_⟩
    · have left := leavesLying_executeAll machine lies fuel
      rw [failed] at left
      exact left.2.2
    · rw [executeAll_eq]
      have run := (Evaluator.alike_alarmed id alarm fuel).runAll (stmts_exact lies)
      exact outcomes_eq_of_exact (run m m machine)

/-- A text with an assignment to a call, which is rejected, and a function, which is called
later. -/
theorem improper_trees_unreachable_kept :
    let read : Action := .operation (.run 9 "f() = f; function f() \x7b y = x; \x7d")
    let m := performed {} [read]
    let program := (Script.ofTokens (Token.scan "f();")).program
    (∀ s ∈ program, s.IsRead) ∧
      Eval.answer? (interpret 9 program m) = some (.error ⟨.undefinedVariable "x", 1⟩) ∧
      (∀ e n, executeAll 9 program m = .error (.failed e) n → e.cause ≠ .invalidTarget) ∧
      ∀ alarm : Eval Unit,
        (Evaluator.alarmed alarm 9).runAll program m = executeAll 9 program m := by
  intro read m program
  have isRead : ∀ s ∈ program, s.IsRead := fun s mem => ⟨_, mem⟩
  have reads : ∀ a ∈ [read], a.Reads := by simp [read, Action.Reads, Operation.Reads]
  exact ⟨isRead, by decide +kernel, improper_trees_unreachable.2 {} [read] reads 9 program isRead⟩

end Session

end Scriptlet
