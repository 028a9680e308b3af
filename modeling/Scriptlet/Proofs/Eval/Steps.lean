import Scriptlet.Proofs.Host.Frames
import Scriptlet.Session
import Mathlib.Logic.Relation

/-! # The steps that a running script is made of

Whatever a script does to its interpreter is a chain of a few kinds of steps, also if it fails or
runs out of fuel. What each step keeps is kept by every run. A step is allowed only what a licence
grants: into which of the older frames new frames and functions may be put, and which names may be
bound there. -/

namespace Scriptlet

/-! ## Declared names -/

namespace Stmt

mutual

/-- The names that a statement binds in the frame it runs in. Blocks, for loops and calls have
frames of their own. -/
def declared : Stmt → List String
  | .varDecl _ name _ | .function _ name .. | .classDecl _ name .. | .property _ name .. => [name]
  | .branch _ _ consequent alternative => consequent.declared ++ declaredOption alternative
  | .whileLoop _ _ body => body.declared
  | .expression .. | .returning .. | .forLoop .. | .block .. => []

@[inherit_doc declared]
def declaredOption : Option Stmt → List String
  | some s => s.declared
  | none => []

end

end Stmt

/-! ## Steps -/

namespace Machine

abbrev frameCount (m : Machine) : Nat := m.store.scopes.count

/-- What a computation may do to frames. Those from `start` on are new, and its own. -/
structure Licence where
  start : Nat
  /-- The older frames that it may put frames and functions into. -/
  homes : FrameId → Prop
  /-- The names that it may bind in older frames. -/
  binds : FrameId → String → Prop

namespace Licence

/-- Frames and functions may be put into the frame. -/
def Reaches (l : Licence) (m : Machine) (f : FrameId) : Prop :=
  l.homes f ∨ (l.start ≤ f ∧ f < m.frameCount)

/-- The name may be bound in the frame, also if it is not bound there yet. -/
def MayBind (l : Licence) (f : FrameId) (name : String) : Prop :=
  l.start ≤ f ∨ l.binds f name

end Licence

/-- A single change that a running script makes. -/
inductive Step (l : Licence) : Machine → Machine → Prop where
  | console (m : Machine) (console : Console) : Step l m { m with console }
  /-- A call puts a frame into the one that the function was declared in. -/
  | newFrame (m : Machine) (parent : FrameId)
      (h : l.Reaches m parent ∨
        ∃ id, parent = (m.store.function id).scope.getD Scopes.globals) :
      Step l m { m with store := { m.store with scopes := (m.store.scopes.child parent).2 } }
  | rebind (m : Machine) (f : FrameId) (name : String) (value : Value)
      (h : m.store.scopes.Binds f name) :
      Step l m { m with store := { m.store with scopes := m.store.scopes.define f name value } }
  | declare (m : Machine) (f : FrameId) (name : String) (value : Value) (h : l.MayBind f name) :
      Step l m { m with store := { m.store with scopes := m.store.scopes.define f name value } }
  | newFunction (m : Machine) (f : FunctionObject) (h : ∀ g ∈ f.scope, l.Reaches m g) :
      Step l m { m with store := (m.store.addFunction f).2 }
  | newClass (m : Machine) (c : ClassObject) : Step l m { m with store := (m.store.addClass c).2 }
  /-- Only a class that is not static has instances. -/
  | newInstance (m : Machine) (id : ClassId) (h : (m.store.classObject id).isStatic = false) :
      Step l m { m with store := (m.store.addInstance id).2 }
  | setField (m : Machine) (id : InstanceId) (name : String) (value : Value) :
      Step l m { m with store := m.store.setField id name value }
  | load (m : Machine) (nickname : String) : Step l m (m.loadByName nickname).2
  | unload (m : Machine) (nameOrAlias : String) : Step l m (m.unload nameOrAlias).2

abbrev Steps (l : Licence) : Machine → Machine → Prop := Relation.ReflTransGen (Step l)

variable {l l' : Licence} {m m' : Machine}

/-- What a step keeps is kept by any number of steps. -/
theorem Steps.preserve {P : Machine → Prop} (keeps : ∀ m m', Step l m m' → P m → P m')
    (h : Steps l m m') (start : P m) : P m' := by
  induction h with
  | refl => exact start
  | tail _ step ih => exact keeps _ _ step ih

/-- No step gives up a frame. -/
theorem Step.frameCount_le (step : Step l m m') : m.frameCount ≤ m'.frameCount := by
  cases step with
  | console | newFunction | newClass | newInstance | setField => exact Nat.le_refl _
  | newFrame parent =>
      have grown := m.store.scopes.count_child parent
      exact Nat.le_of_lt (Nat.lt_of_lt_of_eq (Nat.lt_succ_self _) grown.symm)
  | rebind f name value | declare f name value =>
      exact Nat.le_of_eq (m.store.scopes.count_define f name value).symm
  | load nickname => exact Nat.le_of_eq (m.loadByName_variesInGlobals nickname).scopes.count.symm
  | unload nameOrAlias => exact Nat.le_of_eq (m.unload_variesInGlobals nameOrAlias).scopes.count.symm

theorem Steps.frameCount_le (h : Steps l m m') : m.frameCount ≤ m'.frameCount :=
  h.preserve (fun _ _ step le => Nat.le_trans le step.frameCount_le) (Nat.le_refl _)

/-- No step changes where a reference leads to. -/
theorem Step.within (step : Step l m m') : m.store.Within m'.store := by
  cases step with
  | console => exact .refl _
  | newFrame | rebind | declare => exact m.store.within_scopes _
  | newFunction f => exact (m.store.addFunction_extends f).within
  | newClass c => exact (m.store.addClass_extends c).within
  | newInstance id => exact (m.store.addInstance_extends id).within
  | setField id name value => exact m.store.within_setField id name value
  | load nickname => exact (m.loadByName_variesInGlobals nickname).objects
  | unload nameOrAlias => exact (m.unload_variesInGlobals nameOrAlias).objects

theorem Step.widen (step : Step l m m') (reaches : ∀ f, l.Reaches m f → l'.Reaches m f)
    (binds : ∀ f name, l.MayBind f name → l'.MayBind f name) : Step l' m m' := by
  cases step with
  | console console => exact .console m console
  | newFrame parent h => exact .newFrame m parent (h.imp_left (reaches parent))
  | rebind f name value h => exact .rebind m f name value h
  | declare f name value h => exact .declare m f name value (binds f name h)
  | newFunction f h => exact .newFunction m f fun g hg => reaches g (h g hg)
  | newClass c => exact .newClass m c
  | newInstance id h => exact .newInstance m id h
  | setField id name value => exact .setField m id name value
  | load nickname => exact .load m nickname
  | unload nameOrAlias => exact .unload m nameOrAlias

/-- Steps under one licence are steps under another that grants as much, given the frames that were
there when they began. -/
theorem Steps.widen (h : Steps l m m') (start : l'.start ≤ l.start)
    (homes : ∀ f, l.homes f → l'.homes f ∨ (l'.start ≤ f ∧ f < m.frameCount))
    (binds : ∀ f name, l.binds f name → l'.MayBind f name) : Steps l' m m' := by
  induction h with
  | refl => exact .refl
  | @tail mid last before step ih =>
      refine ih.tail (step.widen ?_ ?_)
      · rintro f (home | ⟨new, inside⟩)
        · exact (homes f home).imp_right fun own =>
            ⟨own.1, Nat.lt_of_lt_of_le own.2 (Steps.frameCount_le before)⟩
        · exact .inr ⟨Nat.le_trans start new, inside⟩
      · rintro f name (new | granted)
        · exact .inl (Nat.le_trans start new)
        · exact binds f name granted

end Machine

/-! ## Computations -/

namespace Eval

open Machine

variable {α β : Type}

def after (x : Eval α) (m : Machine) : Machine :=
  match x m with
  | .ok _ m' | .error _ m' => m'

/-- A computation that is made of steps, from wherever it starts. The frames that it makes are its
own; of the others it puts frames and functions into `homes` only, and binds only the names that
`binds` grants. -/
def Runs (x : Eval α) (homes : FrameId → Prop) (binds : FrameId → String → Prop) : Prop :=
  ∀ m : Machine, Steps ⟨m.frameCount, homes, binds⟩ m (x.after m)

def nothing : FrameId → String → Prop := fun _ _ => False

def allIn (f : FrameId) : FrameId → String → Prop := fun g _ => g = f

variable {homes homes' : FrameId → Prop} {binds binds' : FrameId → String → Prop}

theorem Runs.mono {x : Eval α} (h : x.Runs homes binds) (hh : ∀ f, homes f → homes' f)
    (hb : ∀ f name, binds f name → binds' f name) : x.Runs homes' binds' :=
  fun m => (h m).widen (Nat.le_refl _) (fun f home => .inl (hh f home))
    fun f name granted => .inr (hb f name granted)

theorem Runs.of_nothing {x : Eval α} (h : x.Runs homes nothing) : x.Runs homes binds :=
  h.mono (fun _ home => home) fun _ _ => False.elim

abbrev Stepwise (x : Eval α) : Prop :=
  x.Runs (fun _ => True) fun _ _ => True

theorem Runs.stepwise {x : Eval α} (h : x.Runs homes binds) : x.Stepwise :=
  h.mono (fun _ _ => trivial) fun _ _ _ => trivial

theorem runs_pure (a : α) : (pure a : Eval α).Runs homes binds :=
  fun _ => .refl

theorem runs_throw (halt : Halt) : (throw halt : Eval α).Runs homes binds :=
  fun _ => .refl

theorem runs_fail (cause : RuntimeCause) (line : Nat) :
    (fail cause line : Eval α).Runs homes binds :=
  runs_throw _

theorem runs_get : (get : Eval Machine).Runs homes binds :=
  fun _ => .refl

theorem after_bind_of_ok {x : Eval α} {g : α → Eval β} {m mid : Machine} {a : α}
    (h : x m = .ok a mid) : (x >>= g).after m = (g a).after mid := by
  simp only [after, Bind.bind, EStateM.bind, h]

theorem after_bind_of_error {x : Eval α} {g : α → Eval β} {m mid : Machine} {halt : Halt}
    (h : x m = .error halt mid) : (x >>= g).after m = x.after m := by
  simp only [after, Bind.bind, EStateM.bind, h]

theorem Runs.bind {x : Eval α} {g : α → Eval β} (hx : x.Runs homes binds)
    (hg : ∀ a, (g a).Runs homes binds) : (x >>= g).Runs homes binds := by
  intro m
  have first := hx m
  cases h : x m with
  | ok a mid =>
      have reached : x.after m = mid := by simp only [after, h]
      rw [reached] at first
      rw [after_bind_of_ok h]
      -- the frames made meanwhile are frames of the whole computation
      exact first.trans ((hg a mid).widen first.frameCount_le (fun f home => .inl home)
        fun f name granted => .inr granted)
  | error halt mid =>
      rw [after_bind_of_error h]
      exact first

theorem Runs.map {x : Eval α} (hx : x.Runs homes binds) (g : α → β) :
    (g <$> x).Runs homes binds := by
  rw [map_eq_pure_bind]
  exact hx.bind fun a => runs_pure (g a)

theorem Runs.attempt {x : Eval α} (hx : x.Runs homes binds) : (attempt x).Runs homes binds := by
  intro m
  have same : (Eval.attempt x).after m = x.after m := by
    cases h : x m with
    | ok a m => simp only [after, Eval.attempt, h]
    | error halt m => cases halt <;> simp only [after, Eval.attempt, h]
  rw [same]
  exact hx m

theorem runs_step {f : Machine → α × Machine} (h : ∀ m l, Step l m (f m).2) :
    (step f).Runs homes binds :=
  fun m => .single (h m _)

theorem runs_define {f : FrameId} {name : String} (granted : binds f name) (value : Value) :
    (define f name value).Runs homes binds :=
  fun m => .single (.declare m f name value (.inr granted))

theorem runs_newFunction {f : FunctionObject} (scope : ∀ g ∈ f.scope, homes g) :
    (newFunction f).Runs homes binds :=
  fun m => .single (.newFunction m f fun g hg => .inl (scope g hg))

theorem runs_newClass (c : ClassObject) : (newClass c).Runs homes binds :=
  runs_step fun m _ => .newClass m c

/-- A computation that looks at the interpreter first. -/
theorem runs_get_bind {g : Machine → Eval α}
    (h : ∀ m : Machine, Steps ⟨m.frameCount, homes, binds⟩ m ((g m).after m)) :
    (get >>= g).Runs homes binds :=
  h

theorem runs_lookup (f : FrameId) (name : String) (line : Nat) :
    (lookup f name line).Runs homes binds := by
  refine runs_get.bind fun m => ?_
  split
  · exact runs_pure _
  · exact runs_fail _ _

theorem runs_assign (f : FrameId) (name : String) (value : Value) (line : Nat) :
    (assign f name value line).Runs homes binds := by
  refine runs_get_bind fun m => ?_
  split
  · rename_i owner found
    exact .single (.rebind m owner name value (Scopes.binds_of_owner? found))
  · exact .refl

theorem runs_instantiate (id : ClassId) (line : Nat) : (instantiate id line).Runs homes binds := by
  refine runs_get_bind fun m => ?_
  dsimp only
  split
  case isTrue => exact .refl
  case isFalse h => exact .single (.newInstance m id (by simpa using h))

/-- A computation that goes on in a frame of its own, which lies in a frame that it may use or in
the one that a function was declared in. -/
theorem steps_newFrame {m : Machine} {parent : FrameId} {g : FrameId → Eval α}
    (h : homes parent ∨ ∃ id, parent = (m.store.function id).scope.getD Scopes.globals)
    (hg : ∀ frame, (g frame).Runs (fun f => homes f ∨ f = frame)
      fun f name => binds f name ∨ f = frame) :
    Steps ⟨m.frameCount, homes, binds⟩ m ((newFrame parent >>= g).after m) := by
  let mid : Machine :=
    { m with store := { m.store with scopes := (m.store.scopes.child parent).2 } }
  have made : newFrame parent m = .ok m.frameCount mid := rfl
  have grown : mid.frameCount = m.frameCount + 1 := m.store.scopes.count_child parent
  rw [after_bind_of_ok made]
  refine .head (.newFrame m parent (h.imp_left .inl)) ((hg m.frameCount mid).widen ?_ ?_ ?_)
  · exact Nat.le_of_lt (Nat.lt_of_lt_of_eq (Nat.lt_succ_self _) grown.symm)
  · rintro f (home | rfl)
    · exact .inl home
    · exact .inr ⟨Nat.le_refl _, Nat.lt_of_lt_of_eq (Nat.lt_succ_self _) grown.symm⟩
  · rintro f name (granted | rfl)
    · exact .inr granted
    · exact .inl (Nat.le_refl _)

/-- A computation that goes on in a frame of its own only. -/
theorem runs_newFrame {parent : FrameId} {g : FrameId → Eval α} (h : homes parent)
    (hg : ∀ frame, (g frame).Runs (· = frame) (allIn frame)) :
    (newFrame parent >>= g).Runs homes binds := fun _ =>
  steps_newFrame (.inl h) fun frame =>
    (hg frame).mono (fun _ home => .inr home) fun _ _ granted => .inr granted

theorem Runs.repeated {round : β → Eval (β ⊕ α)} (h : ∀ b, (round b).Runs homes binds) (n : Nat)
    (b : β) : (Eval.repeated round n b).Runs homes binds := by
  induction n generalizing b with
  | zero => exact runs_throw _
  | succ n ih =>
      refine (h b).bind fun result => ?_
      cases result with
      | inl next => exact ih next
      | inr result => exact runs_pure result

end Eval

/-! ## Expressions and statements -/

namespace Evaluator

open Eval Machine

/-- The names that a statement declares, in the frame it runs in. -/
def declares (f : FrameId) (s : Stmt) : FrameId → String → Prop :=
  fun g name => g = f ∧ name ∈ s.declared

/-- An evaluator that makes steps only. Expressions bind no names in older frames, and statements
those that they declare. -/
structure Runs (ev : Evaluator) : Prop where
  eval : ∀ e f, (ev.eval e f).Runs (· = f) nothing
  exec : ∀ s f, (ev.exec s f).Runs (· = f) (declares f s)

variable {ev : Evaluator} {homes : FrameId → Prop} {binds : FrameId → String → Prop}

theorem runs_evalName (f : FrameId) (name : String) (line : Nat) :
    (evalName f name line).Runs homes binds := by
  refine (runs_lookup f name line).bind fun value => ?_
  split
  · exact runs_instantiate _ _
  · exact runs_pure _

theorem runs_evalMember (object : Value) (name : String) (line : Nat) :
    (evalMember object name line).Runs homes binds := by
  refine runs_get.bind fun m => ?_
  dsimp only
  split
  · split
    · exact runs_pure _
    · exact runs_fail _ _
  · split
    · exact runs_pure _
    · exact runs_fail _ _
  · exact runs_fail _ _

theorem runs_assignName (f : FrameId) (op : AssignOp) (name : String) (value : Value)
    (line : Nat) : (assignName f op name value line).Runs homes binds := by
  unfold assignName
  dsimp only
  split
  · exact (runs_assign f name _ line).bind fun _ => runs_pure _
  · exact (runs_lookup f name line).bind fun current =>
      (runs_assign f name _ line).bind fun _ => runs_pure _

theorem runs_assignField (object : Value) (op : AssignOp) (name : String) (value : Value)
    (line : Nat) : (assignField object op name value line).Runs homes binds := by
  unfold assignField
  split
  · exact runs_step fun m _ => .setField m _ _ _
  · exact runs_fail _ _

theorem runs_callBuiltin (builtin : Builtin) (args : List Value) :
    (callBuiltin builtin args).Runs homes binds := by
  unfold callBuiltin
  split
  · exact runs_step fun m _ => .console m _
  · exact runs_step fun m _ => .console m _
  · exact runs_step fun m _ => .console m _
  · exact runs_pure _
  · exact runs_pure _
  · exact runs_step fun m _ => .load m _
  · exact runs_step fun m _ => .unload m _
  · exact runs_pure _
  · exact runs_pure _
  · exact runs_step fun m _ => .console m _

namespace Runs

variable (h : ev.Runs)
include h

theorem evalOption (f : FrameId) (e : Option Expr) :
    (evalOption ev f e).Runs (· = f) nothing := by
  cases e with
  | none => exact runs_pure _
  | some e => exact h.eval e f

theorem evalAll (f : FrameId) (es : List Expr) : (evalAll ev f es).Runs (· = f) nothing := by
  induction es with
  | nil => exact runs_pure _
  | cons e es ih =>
      exact (h.eval e f).bind fun value => ih.bind fun values => runs_pure _

theorem evalAssign (f : FrameId) (op : AssignOp) (target value : Expr) (line : Nat) :
    (evalAssign ev f op target value line).Runs (· = f) nothing := by
  refine (h.eval value f).bind fun value => ?_
  split
  · exact runs_assignName f op _ value line
  · exact (h.eval _ f).bind fun object => runs_assignField object op _ value line
  · exact runs_fail _ _

theorem execAll (f : FrameId) (last : Value) (ss : List Stmt) :
    (execAll ev f last ss).Runs (· = f) (allIn f) := by
  induction ss generalizing last with
  | nil => exact runs_pure _
  | cons s ss ih =>
      have first := (h.exec s f).mono (fun _ home => home) fun _ _ granted => granted.1
      refine first.bind fun flow => ?_
      cases flow with
      | normal value => exact ih value
      | returned value => exact runs_pure _

/-- The arguments are evaluated in one frame and bound in another. -/
theorem bindArguments (f frame : FrameId) (params : List String) (args : List Expr) :
    (bindArguments ev f frame params args).Runs (· = f) (allIn frame) := by
  induction params generalizing args with
  | nil => exact runs_pure _
  | cons param params ih =>
      cases args with
      | nil => exact runs_pure _
      | cons arg args =>
          exact (h.eval arg f).of_nothing.bind fun value =>
            (runs_define rfl value).bind fun _ => ih args

theorem callFunction (f : FrameId) (id : FunctionId) (args : List Expr) (line : Nat) :
    (callFunction ev f id args line).Runs (· = f) nothing := by
  refine runs_get_bind fun m => ?_
  dsimp only
  split
  · refine steps_newFrame (.inr ⟨id, rfl⟩) fun frame => ?_
    refine .bind ((h.bindArguments f frame (m.store.function id).params args).mono
      (fun _ home => .inl home) fun _ _ granted => .inr granted) fun _ => ?_
    split
    · exact runs_pure _
    · exact runs_newFrame (.inr rfl) fun inner =>
        (h.execAll inner .null _).bind fun flow => runs_pure _
  · exact .refl

theorem callValue (f : FrameId) (callee : Expr) (args : List Expr) (line : Nat) :
    (callValue ev f callee args line).Runs (· = f) nothing := by
  refine (h.eval callee f).bind fun value => ?_
  split
  · exact h.callFunction f _ args line
  · exact runs_fail _ _

theorem callName (f : FrameId) (callee : Expr) (name : String) (args : List Expr) (line : Nat) :
    (callName ev f callee name args line).Runs (· = f) nothing := by
  unfold Evaluator.callName
  split
  · exact (h.evalAll f args).bind fun values => runs_callBuiltin _ values
  · refine runs_get.bind fun m => ?_
    split
    · exact (h.evalAll f args).bind fun values => runs_step fun m _ => .console m _
    · refine runs_get.bind fun m => ?_
      split
      · exact (h.evalAll f args).bind fun values => runs_step fun m _ => .console m _
      · exact h.callValue f callee args line

/-- One level of evaluation makes steps only if the levels below do. -/
theorem evalStep (e : Expr) (f : FrameId) : (evalStep ev e f).Runs (· = f) nothing := by
  cases e with
  | number | string | bool | null => exact runs_pure _
  | identifier pos name => exact runs_evalName f name pos.line
  | binary pos op left right =>
      refine (h.eval left f).bind fun left => (h.eval right f).bind fun right =>
        runs_get.bind fun m => ?_
      split
      · exact runs_pure _
      · exact runs_fail _ _
  | unary pos op operand => exact (h.eval operand f).bind fun value => runs_pure _
  | call pos callee args =>
      cases callee with
      | identifier namePos name => exact h.callName f _ name args pos.line
      | number | string | bool | null | binary | unary | call | member | assign =>
          exact h.callValue f _ args pos.line
  | member pos object name =>
      exact (h.eval object f).bind fun object => runs_evalMember object name pos.line
  | assign pos op target value => exact h.evalAssign f op target value pos.line

theorem declareMembers (frame : FrameId) (c : ClassObject) (members : List Stmt) :
    (declareMembers ev frame c members).Runs (· = frame) nothing := by
  fun_induction Evaluator.declareMembers ev frame c members with
  | case1 c => exact runs_pure _
  | case2 c pos name params body modifiers members ih =>
      exact (runs_newFunction fun g hg => (Option.some.inj hg).symm).bind fun id => ih id
  | case3 c pos name initializer modifiers members ih =>
      exact (h.evalOption frame initializer).bind fun value => ih value
  | case4 c s members _ _ ih => exact ih

theorem holds (f : FrameId) (condition : Option Expr) :
    (holds ev f condition).Runs (· = f) nothing := by
  cases condition with
  | none => exact runs_pure _
  | some e => exact (h.eval e f).bind fun value => runs_pure _

theorem loopRound (f : FrameId) (condition step : Option Expr) (body : Stmt) (last : Value) :
    (loopRound ev f condition step body last).Runs (· = f) (declares f body) := by
  refine (h.holds f condition).of_nothing.bind fun goesOn => ?_
  split
  · refine (h.exec body f).bind fun flow => ?_
    cases flow with
    | normal value =>
        exact ((h.evalOption f step).of_nothing.map _).bind fun _ => runs_pure _
    | returned value => exact runs_pure _
  · exact runs_pure _

theorem execStep (n : Nat) (s : Stmt) (f : FrameId) :
    (execStep ev n s f).Runs (· = f) (declares f s) := by
  cases s with
  | expression pos e => exact (h.eval e f).of_nothing.bind fun value => runs_pure _
  | varDecl pos name initializer | property pos name initializer =>
      have granted : name ∈ [name] := List.mem_singleton_self name
      exact (h.evalOption f initializer).of_nothing.bind fun value =>
        (runs_define ⟨rfl, granted⟩ value).bind fun _ => runs_pure _
  | returning pos value => exact (h.evalOption f value).of_nothing.bind fun value => runs_pure _
  | branch pos condition consequent alternative =>
      refine (h.eval condition f).of_nothing.bind fun test => ?_
      split
      · exact (h.exec consequent f).mono (fun _ home => home) fun _ _ granted =>
          ⟨granted.1, List.mem_append_left _ granted.2⟩
      · cases alternative with
        | none => exact runs_pure _
        | some s =>
            exact (h.exec s f).mono (fun _ home => home) fun _ _ granted =>
              ⟨granted.1, List.mem_append_right _ granted.2⟩
  | whileLoop pos condition body => exact .repeated (h.loopRound f _ _ body) n _
  | forLoop pos initializer condition step body =>
      refine runs_newFrame rfl fun frame => ?_
      have own (s : Stmt) {α : Type} {x : Eval α} (runs : x.Runs (· = frame) (declares frame s)) :
          x.Runs (· = frame) (allIn frame) :=
        runs.mono (fun _ home => home) fun _ _ granted => granted.1
      have rounds := own body (.repeated (h.loopRound frame condition step body) n .null)
      cases initializer with
      | none => exact rounds
      | some s => exact ((own s (h.exec s frame)).map _).bind fun _ => rounds
  | block pos body => exact runs_newFrame rfl fun frame => h.execAll frame .null body
  | function pos name params body modifiers =>
      have granted : name ∈ [name] := List.mem_singleton_self name
      exact (runs_newFunction fun g hg => (Option.some.inj hg).symm).bind fun id =>
        (runs_define ⟨rfl, granted⟩ _).bind fun _ => runs_pure _
  | classDecl pos name members isStatic =>
      have granted : name ∈ [name] := List.mem_singleton_self name
      refine fun m => steps_newFrame (.inl rfl) fun frame => ?_
      refine .bind ((h.declareMembers frame _ members).of_nothing.mono
        (fun _ home => .inr home) fun _ _ granted => granted) fun c => ?_
      exact (runs_newClass c).bind fun id =>
        (runs_define (.inl ⟨rfl, granted⟩) _).bind fun _ => runs_pure _

end Runs

/-- Evaluation makes steps only, whatever the fuel. -/
theorem runs_ofFuel (fuel : Nat) : (ofFuel fuel).Runs := by
  induction fuel with
  | zero => exact ⟨fun _ _ => runs_throw _, fun _ _ => runs_throw _⟩
  | succ n ih => exact ⟨fun e f => ih.evalStep e f, fun s f => ih.execStep n s f⟩

end Evaluator

/-! ## Programs -/

namespace Session

open Eval

theorem runs_executeAll (fuel : Nat) (program : Program) :
    (executeAll fuel program).Runs (· = Scopes.globals) (allIn Scopes.globals) := by
  induction program with
  | nil => exact runs_pure _
  | cons s ss ih =>
      have first := ((Evaluator.runs_ofFuel fuel).exec s Scopes.globals).mono
        (fun _ home => home) fun _ _ granted => granted.1
      refine first.bind fun flow => ?_
      cases flow with
      | normal value => exact ih
      | returned value => exact runs_pure _

theorem runs_interpret (fuel : Nat) (program : Program) :
    (interpret fuel program).Runs (· = Scopes.globals) (allIn Scopes.globals) := by
  refine (runs_executeAll fuel program).attempt.bind fun result => ?_
  cases result with
  | ok => exact runs_pure _
  | error e => exact (runs_step fun m _ => .console m _).bind fun _ => runs_pure _

/-- Running a script makes steps only, whether or not it succeeds. -/
theorem runs_run (fuel : Nat) (source : String) :
    (run fuel source).Runs (· = Scopes.globals) (allIn Scopes.globals) := by
  refine (runs_interpret fuel _).bind fun result => ?_
  cases result with
  | ok => exact runs_pure _
  | error e => exact runs_pure _

end Session

end Scriptlet
