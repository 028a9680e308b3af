import Scriptlet.Proofs.Eval.Likeness
import Scriptlet.Proofs.Eval.Steps
import Scriptlet.Proofs.Syntax.Callees

/-! # Runs that are tied together

Two interpreters that differ in their registries at most run the same trees side by side, as long as
these call by name only what both interpreters dispatch alike. What a bond asks of the interpreters
is kept all along: by the few changes that scripts make themselves, and by plugins that are loaded
and unloaded, if these may be called at all. A plugin may also lead astray, and what the runs do
after that is left open. A bond of an interpreter with itself is an invariant of a single run. -/

namespace Scriptlet

open Likeness (Answers)

/-- Only the given names are called in the body. -/
def FunctionObject.CallsOnly (calls : String → Prop) (f : FunctionObject) : Prop :=
  ∀ body ∈ f.body, ∀ s ∈ body, s.CallsOnly calls

/-! ## Changes -/

namespace Machine

/-- A change that scripts make to an interpreter by themselves, plugins apart. -/
inductive Change where
  | console (written : Console)
  | newFrame (parent : FrameId)
  | define (f : FrameId) (name : String) (value : Value)
  | newFunction (f : FunctionObject)
  | newClass (c : ClassObject)
  | newInstance (id : ClassId)
  | setField (id : InstanceId) (name : String) (value : Value)

namespace Change

def apply (m : Machine) : Change → Machine
  | .console written => { m with console := written }
  | .newFrame parent =>
      { m with store := { m.store with scopes := (m.store.scopes.child parent).2 } }
  | .define f name value =>
      { m with store := { m.store with scopes := m.store.scopes.define f name value } }
  | .newFunction f => { m with store := (m.store.addFunction f).2 }
  | .newClass c => { m with store := (m.store.addClass c).2 }
  | .newInstance id => { m with store := (m.store.addInstance id).2 }
  | .setField id name value => { m with store := m.store.setField id name value }

/-- Frames are put into frames that may be used, and so are functions, which call only the given
names. Only a class that is not static has instances. -/
def Fits (calls : String → Prop) (usable : FrameId → Prop) (m : Machine) : Change → Prop
  | .newFrame parent => usable parent
  | .newFunction f => f.CallsOnly calls ∧ ∀ g ∈ f.scope, usable g
  | .newInstance id => (m.store.classObject id).isStatic = false
  | .console _ | .define .. | .newClass _ | .setField .. => True

variable (m : Machine) (c : Change)

/-- Scripts do not touch the registry themselves. -/
theorem apply_withRegistry (registry : Registry) :
    c.apply { m with registry } = { c.apply m with registry } := by
  cases c <;> rfl

theorem frameCount_le : m.frameCount ≤ (c.apply m).frameCount := by
  cases c with
  | newFrame parent =>
      have grown := m.store.scopes.count_child parent
      simp only [apply, frameCount, grown]
      omega
  | define f name value => simp [apply, frameCount]
  | console | newFunction | newClass | newInstance | setField => exact Nat.le_refl _

end Change

/-- Only the given names are called in the bodies of functions. -/
def CallsOnly (calls : String → Prop) (m : Machine) : Prop :=
  ∀ f ∈ m.store.functions, f.CallsOnly calls

variable {calls : String → Prop} {m m' : Machine}

theorem CallsOnly.function (h : m.CallsOnly calls) (id : FunctionId) :
    (m.store.function id).CallsOnly calls := by
  unfold Store.function
  rw [Array.getD_eq_getD_getElem?]
  cases found : m.store.functions[id]? with
  | none => simp [FunctionObject.CallsOnly, default, instInhabitedFunctionObject.default]
  | some f => exact h f (Array.mem_of_getElem? found)

theorem CallsOnly.change (h : m.CallsOnly calls) {usable : FrameId → Prop} {c : Change}
    (fits : c.Fits calls usable m) : (c.apply m).CallsOnly calls := by
  cases c with
  | newFunction f =>
      intro g mem
      rcases Array.mem_push.mp mem with old | rfl
      · exact h g old
      · exact fits.1
  | console | newFrame | define | newClass | newInstance | setField => exact h

theorem CallsOnly.of_variesInGlobals (h : m.CallsOnly calls) {made : List Stmt → Prop}
    (varies : m.store.VariesInGlobals made m'.store)
    (bodies : ∀ body, made body → ∀ s ∈ body, s.CallsOnly calls) : m'.CallsOnly calls := by
  intro f mem
  rcases varies.functions f mem with old | ⟨new, -⟩
  · exact h f old
  · exact fun body has => bodies body (new body has)

/-- Functions are not given up. -/
theorem CallsOnly.of_within (h : m'.CallsOnly calls) (within : m.store.Within m'.store) :
    m.CallsOnly calls :=
  fun f mem => h f (within.mem_functions mem)

theorem callsOnly_fresh (console : Console) : (fresh console).CallsOnly calls := by
  unfold fresh
  refine .of_variesInGlobals (m := ⟨⟨Scopes.empty.root.2, #[], #[], #[]⟩, _, _, _, _⟩) ?_
    (foldl_variesInGlobals (fun m b => m.defineStub_variesInGlobals _ _) _ _) fun _ => False.elim
  intro f mem
  simp at mem

end Machine

open Machine

def Eval.left {α : Type} : EStateM.Result Halt Machine α → Machine
  | .ok _ m | .error _ m => m

/-! ## Bonds -/

/-- What ties two interpreters together while they run the same trees: how they are related, what
they have in common then, and that whatever scripts do keeps them so, unless a plugin leads the
first one astray. -/
structure Bond where
  /-- The names that may stand at callees. -/
  calls : String → Prop
  /-- Frames may be used whether they exist or not. -/
  anyFrame : Prop
  rel : Machine → Machine → Prop
  /-- The interpreters that are lost for the bond. No step of a script leads back. -/
  astray : Machine → Prop
  same : ∀ {m m'}, rel m m' → m' = { m with registry := m'.registry }
  registry : ∀ {m m'}, rel m m' → ∀ name, calls name → m'.registry[name]? = m.registry[name]?
  bodies : ∀ {m m'}, rel m m' → ∀ id, (m.store.function id).CallsOnly calls
  scopes : ∀ {m m'}, rel m m' → ∀ id,
    anyFrame ∨ (m.store.function id).scope.getD Scopes.globals < m.frameCount
  change : ∀ {m m'}, rel m m' → ∀ c : Change,
    c.Fits calls (fun f => anyFrame ∨ f < m.frameCount) m → rel (c.apply m) (c.apply m')
  load : calls "loadPlugin" → ∀ {m m'}, rel m m' → ∀ nickname,
    Answers rel (m.loadByName nickname) (m'.loadByName nickname) ∨
      astray (m.loadByName nickname).2
  unload : calls "unloadPlugin" → ∀ {m m'}, rel m m' → ∀ nameOrAlias,
    Answers rel (m.unload nameOrAlias) (m'.unload nameOrAlias)
  stays : ∀ {l m n}, Step l m n → astray m → astray n

namespace Bond

variable (B : Bond) {α : Type}

/-- The frame may be used where there are so many frames at least. -/
def Usable (k : Nat) (f : FrameId) : Prop :=
  B.anyFrame ∨ f < k

/-- Runs that end in the same way, with interpreters that are still tied and have so many frames at
least; or else the first run has gone astray. -/
inductive Outcomes (k : Nat) :
    EStateM.Result Halt Machine α → EStateM.Result Halt Machine α → Prop where
  | ok {a : α} {n n' : Machine} : B.rel n n' → k ≤ n.frameCount → Outcomes k (.ok a n) (.ok a n')
  | error {halt : Halt} {n n' : Machine} : B.rel n n' → k ≤ n.frameCount →
      Outcomes k (.error halt n) (.error halt n')
  | astray {r r' : EStateM.Result Halt Machine α} : B.astray (Eval.left r) → Outcomes k r r'

variable {B} {k k' : Nat}

theorem Usable.mono {f : FrameId} (h : B.Usable k f) (le : k ≤ k') : B.Usable k' f :=
  h.imp_right fun inside => Nat.lt_of_lt_of_le inside le

theorem Outcomes.mono {r r' : EStateM.Result Halt Machine α} (h : B.Outcomes k r r')
    (le : k' ≤ k) : B.Outcomes k' r r' := by
  cases h with
  | ok tied count => exact .ok tied (Nat.le_trans le count)
  | error tied count => exact .error tied (Nat.le_trans le count)
  | astray lost => exact .astray lost

/-- A bond of interpreters with themselves only, which nothing leads astray. -/
theorem Outcomes.eq {r r' : EStateM.Result Halt Machine α} (h : B.Outcomes k r r')
    (diagonal : ∀ {m m'}, B.rel m m' → m' = m) (firm : ∀ m, ¬ B.astray m) : r' = r := by
  cases h with
  | ok tied => rw [diagonal tied]
  | error tied => rw [diagonal tied]
  | astray lost => exact absurd lost (firm _)

theorem store {m m' : Machine} (h : B.rel m m') : m'.store = m.store := by
  rw [B.same h]

theorem contains {m m' : Machine} (h : B.rel m m') {name : String} (called : B.calls name) :
    m'.registry.contains name = m.registry.contains name := by
  simp only [Std.TreeMap.contains_eq_isSome_getElem?, B.registry h name called]

end Bond

/-! ## Computations -/

namespace Eval

variable {B : Bond} {α β : Type} {k : Nat}

/-- Computations that end in the same way from tied interpreters with so many frames at least. -/
def Ties (B : Bond) (k : Nat) (x y : Eval α) : Prop :=
  ∀ m m', B.rel m m' → k ≤ m.frameCount → B.Outcomes m.frameCount (x m) (y m')

/-- As before; and the first computation makes steps only, so that it stays astray if it starts
there. -/
structure Tied (B : Bond) (k : Nat) (x y : Eval α) : Prop where
  steps : x.Stepwise
  ties : Ties B k x y

theorem tied_pure (a : α) : Tied B k (pure a) (pure a) :=
  ⟨runs_pure a, fun _ _ tied _ => .ok tied (Nat.le_refl _)⟩

theorem tied_throw (halt : Halt) : Tied B k (throw halt : Eval α) (throw halt) :=
  ⟨runs_throw halt, fun _ _ tied _ => .error tied (Nat.le_refl _)⟩

theorem tied_fail (cause : RuntimeCause) (line : Nat) :
    Tied B k (fail cause line : Eval α) (fail cause line) :=
  tied_throw _

theorem Tied.bind {x y : Eval α} {f g : α → Eval β} (h : Tied B k x y)
    (next : ∀ a, Tied B k (f a) (g a)) : Tied B k (x >>= f) (y >>= g) := by
  refine ⟨h.steps.bind fun a => (next a).steps, fun m m' tied count => ?_⟩
  have first := h.ties m m' tied count
  simp only [Bind.bind, EStateM.bind]
  generalize x m = r at first
  generalize y m' = r' at first
  cases first with
  | ok tied grown => exact ((next _).ties _ _ tied (Nat.le_trans count grown)).mono grown
  | error tied grown => exact .error tied grown
  | astray lost =>
      refine .astray ?_
      cases r with
      | ok a n => exact ((next a).steps n).preserve (fun _ _ step => B.stays step) lost
      | error halt n => exact lost

theorem Tied.map {x y : Eval α} (h : Tied B k x y) (f : α → β) :
    Tied B k (f <$> x) (f <$> y) := by
  rw [map_eq_pure_bind, map_eq_pure_bind]
  exact h.bind fun a => tied_pure (f a)

/-- What comes after a look at the interpreters may use that they are tied, and how many frames
there are. -/
theorem ties_get {f g : Machine → Eval α}
    (next : ∀ m m', B.rel m m' → k ≤ m.frameCount → Ties B m.frameCount (f m) (g m')) :
    Ties B k (get >>= f) (get >>= g) :=
  fun m m' tied count => next m m' tied count m m' tied (Nat.le_refl _)

theorem tied_step {f g : Machine → α × Machine} (steps : ∀ m l, Step l m (f m).2)
    (h : ∀ m m', B.rel m m' → k ≤ m.frameCount →
      Answers B.rel (f m) (g m') ∨ B.astray (f m).2) :
    Tied B k (step f) (step g) := by
  refine ⟨runs_step steps, fun m m' tied count => ?_⟩
  have grown := (steps m ⟨0, fun _ => True, fun _ _ => True⟩).frameCount_le
  show B.Outcomes _ (.ok (f m).1 (f m).2) (.ok (g m').1 (g m').2)
  rcases h m m' tied count with answers | lost
  · generalize f m = r at answers grown
    generalize g m' = r' at answers
    obtain ⟨tied⟩ := answers
    exact .ok tied grown
  · exact .astray lost

/-- A change that is made without a look at the registry. -/
theorem tied_change {f : Machine → α × Machine} (steps : (step f).Stepwise) (c : Machine → Change)
    (fits : ∀ m, k ≤ m.frameCount → (c m).Fits B.calls (B.Usable m.frameCount) m)
    (result : ∀ m, (f m).2 = (c m).apply m)
    (blind : ∀ m registry, f { m with registry } = ((f m).1, { (f m).2 with registry })) :
    Tied B k (step f) (step f) := by
  refine ⟨steps, fun m m' tied count => ?_⟩
  have right : f m' = ((f m).1, (c m).apply m') := by
    have seen := blind m m'.registry
    rwa [result, ← Change.apply_withRegistry, ← B.same tied] at seen
  show B.Outcomes _ (.ok (f m).1 (f m).2) (.ok (f m').1 (f m').2)
  rw [right, result]
  exact .ok (B.change tied (c m) (fits m count)) ((c m).frameCount_le m)

theorem tied_write {f : Machine → α × Machine} (console : Machine → Console)
    (result : ∀ m, (f m).2 = { m with console := console m })
    (blind : ∀ m registry, f { m with registry } = ((f m).1, { (f m).2 with registry })) :
    Tied B k (step f) (step f) := by
  refine tied_change (runs_step fun m l => ?_) (fun m => .console (console m)) (fun _ _ => trivial)
    result blind
  rw [result]
  exact .console m (console m)

theorem tied_define (f : FrameId) (name : String) (value : Value) :
    Tied B k (define f name value) (define f name value) :=
  tied_change (runs_define trivial value) (fun _ => .define f name value) (fun _ _ => trivial)
    (fun _ => rfl) fun _ _ => rfl

theorem tied_lookup (f : FrameId) (name : String) (line : Nat) :
    Tied B k (lookup f name line) (lookup f name line) := by
  refine ⟨runs_lookup f name line, ties_get fun m m' tied _ => ?_⟩
  simp only [B.store tied]
  split
  · exact (tied_pure _).ties
  · exact (tied_fail _ _).ties

theorem tied_assign (f : FrameId) (name : String) (value : Value) (line : Nat) :
    Tied B k (assign f name value line) (assign f name value line) := by
  refine ⟨runs_assign f name value line, ties_get fun m m' tied _ => ?_⟩
  simp only [B.store tied]
  split
  · exact (tied_define _ _ _).ties
  · exact (tied_fail _ _).ties

theorem tied_newFunction {f : FunctionObject} (calls : f.CallsOnly B.calls)
    (scope : ∀ g ∈ f.scope, B.Usable k g) : Tied B k (newFunction f) (newFunction f) :=
  tied_change (runs_newFunction fun _ _ => trivial) (fun _ => .newFunction f)
    (fun _ count => ⟨calls, fun g mem => (scope g mem).mono count⟩) (fun _ => rfl) fun _ _ => rfl

theorem tied_newClass (c : ClassObject) : Tied B k (newClass c) (newClass c) :=
  tied_change (runs_newClass c) (fun _ => .newClass c) (fun _ _ => trivial) (fun _ => rfl)
    fun _ _ => rfl

theorem instantiate_eq (id : ClassId) (line : Nat) (m : Machine) :
    instantiate id line m =
      if (m.store.classObject id).isStatic then
        .error (.failed ⟨.staticInstantiation (m.store.classObject id).name, line⟩) m
      else .ok (.instanceRef m.store.instances.size) ((Change.newInstance id).apply m) := by
  show (if (m.store.classObject id).isStatic then _ else _ : Eval Value) m = _
  split <;> rfl

theorem tied_instantiate (id : ClassId) (line : Nat) :
    Tied B k (instantiate id line) (instantiate id line) := by
  refine ⟨runs_instantiate id line, fun m m' tied _ => ?_⟩
  rw [instantiate_eq, instantiate_eq, B.store tied]
  split
  · exact .error tied (Nat.le_refl _)
  · rename_i instances
    exact .ok (B.change tied (.newInstance id) (eq_false_of_ne_true instances))
      (Nat.le_refl _)

/-- A computation that goes on in a frame of its own. All frames before it are there still. -/
theorem ties_newFrame {parent : FrameId} {f g : FrameId → Eval α} (usable : B.Usable k parent)
    (next : ∀ frame, k ≤ frame → Ties B (frame + 1) (f frame) (g frame)) :
    Ties B k (newFrame parent >>= f) (newFrame parent >>= g) := by
  intro m m' tied count
  have made := B.change tied (.newFrame parent) (usable.mono count)
  have grown : ((Change.newFrame parent).apply m).frameCount = m.frameCount + 1 :=
    m.store.scopes.count_child parent
  -- both make the same frame, as they have equally many
  have same : m'.frameCount = m.frameCount := by simp only [frameCount, B.store tied]
  show B.Outcomes _ (f m.frameCount _) (g m'.frameCount _)
  rw [same]
  refine (next m.frameCount count _ _ made (Nat.le_of_eq grown.symm)).mono ?_
  rw [grown]
  exact Nat.le_succ _

theorem Tied.repeated {round round' : β → Eval (β ⊕ α)} (h : ∀ b, Tied B k (round b) (round' b))
    (n : Nat) (b : β) : Tied B k (Eval.repeated round n b) (Eval.repeated round' n b) := by
  induction n generalizing b with
  | zero => exact tied_throw _
  | succ n ih =>
      refine (h b).bind fun result => ?_
      cases result with
      | inl next => exact ih next
      | inr result => exact tied_pure result

end Eval

/-! ## Expressions and statements -/

theorem Builtin.name_of_ofName? {name : String} {builtin : Builtin}
    (h : ofName? name = some builtin) : builtin.signature.name = name := by
  simpa using List.find?_some h

namespace Evaluator

open Eval

/-- Evaluators that take the same trees the same way, in the frames that they may use. -/
structure Tied (B : Bond) (ev ev' : Evaluator) : Prop where
  runs : ev.Runs
  eval : ∀ {k e f}, e.CallsOnly B.calls → B.Usable k f → Eval.Tied B k (ev.eval e f) (ev'.eval e f)
  exec : ∀ {k s f}, s.CallsOnly B.calls → B.Usable k f → Eval.Tied B k (ev.exec s f) (ev'.exec s f)

variable {B : Bond} {ev ev' : Evaluator} {k : Nat} {f : FrameId}

theorem tied_evalName (f : FrameId) (name : String) (line : Nat) :
    Eval.Tied B k (evalName f name line) (evalName f name line) := by
  refine (tied_lookup f name line).bind fun value => ?_
  cases value with
  | classRef id => exact tied_instantiate id line
  | null | number | string | bool | functionRef | instanceRef | host => exact tied_pure _

theorem tied_evalMember (object : Value) (name : String) (line : Nat) :
    Eval.Tied B k (evalMember object name line) (evalMember object name line) := by
  refine ⟨runs_evalMember object name line, ties_get fun m m' tied _ => ?_⟩
  simp only [B.store tied]
  cases object with
  | instanceRef id =>
      dsimp only
      split
      · exact (tied_pure _).ties
      · exact (tied_fail _ _).ties
  | classRef id =>
      dsimp only
      split
      · exact (tied_pure _).ties
      · exact (tied_fail _ _).ties
  | null | number | string | bool | functionRef | host => exact (tied_fail _ _).ties

theorem tied_assignName (f : FrameId) (op : AssignOp) (name : String) (value : Value)
    (line : Nat) :
    Eval.Tied B k (assignName f op name value line) (assignName f op name value line) := by
  unfold assignName
  dsimp only
  split
  · exact (tied_assign f name _ line).bind fun _ => tied_pure _
  · exact (tied_lookup f name line).bind fun current =>
      (tied_assign f name _ line).bind fun _ => tied_pure _

theorem tied_assignField (object : Value) (op : AssignOp) (name : String) (value : Value)
    (line : Nat) :
    Eval.Tied B k (assignField object op name value line)
      (assignField object op name value line) := by
  unfold assignField
  cases object with
  | instanceRef id =>
      exact tied_change (runs_step fun m _ => .setField m _ _ _)
        (fun m => .setField id name (op.apply ((m.store.field? id name).getD (.number 0.0)) value))
        (fun _ _ => trivial) (fun _ => rfl) fun _ _ => rfl
  | null | number | string | bool | functionRef | classRef | host => exact tied_fail _ _

theorem tied_callBuiltin {builtin : Builtin} (called : B.calls builtin.signature.name)
    (args : List Value) :
    Eval.Tied B k (callBuiltin builtin args) (callBuiltin builtin args) := by
  unfold callBuiltin
  split
  · exact tied_write _ (fun _ => rfl) fun _ _ => rfl
  · exact tied_write _ (fun _ => rfl) fun _ _ => rfl
  · exact tied_write _ (fun _ => rfl) fun _ _ => rfl
  · exact tied_pure _
  · exact tied_pure _
  · rename_i nickname _
    refine tied_step (fun m _ => .load m _) fun m m' tied _ => ?_
    rw [B.store tied]
    refine (B.load called tied (m.store.display nickname)).imp_left fun answers => ?_
    obtain ⟨result, n, n', eq, eq', tied⟩ := answers.parts
    simp only [eq, eq']
    exact ⟨tied⟩
  · rename_i name _
    refine tied_step (fun m _ => .unload m _) fun m m' tied _ => .inl ?_
    rw [B.store tied]
    obtain ⟨result, n, n', eq, eq', tied⟩ :=
      (B.unload called tied (m.store.display name)).parts
    simp only [eq, eq']
    exact ⟨tied⟩
  · exact tied_pure _
  · exact tied_pure _
  · exact tied_write _ (fun _ => rfl) fun _ _ => rfl

theorem tied_callPlugin (name : String) (values : List Value) :
    Eval.Tied B k (step (·.callPlugin name values)) (step (·.callPlugin name values)) :=
  tied_write (fun m => (m.plugins.call name (m.arguments values) m.console).2) (fun _ => rfl)
    fun _ _ => rfl

theorem tied_callRegistered {name : String} (called : B.calls name) (values : List Value) :
    Eval.Tied B k (step (·.callRegistered name values)) (step (·.callRegistered name values)) := by
  refine tied_step (fun m _ => .console m _) fun m m' tied _ => .inl ?_
  have entry := B.registry tied name called
  have call : m'.registry.call name (m'.arguments values) m'.console =
      m.registry.call name (m.arguments values) m.console := by
    rw [B.same tied]
    simp only [Registry.call, entry]
    rfl
  have made := B.change tied
    (.console (m.registry.call name (m.arguments values) m.console).2) trivial
  simp only [callRegistered, call]
  exact ⟨made⟩

namespace Tied

variable (h : Tied B ev ev')
include h

theorem evalOption {e : Option Expr} (calls : ∀ a ∈ e, a.CallsOnly B.calls)
    (usable : B.Usable k f) : Eval.Tied B k (evalOption ev f e) (evalOption ev' f e) := by
  cases e with
  | none => exact tied_pure _
  | some e => exact h.eval (calls e rfl) usable

theorem evalAll {es : List Expr} (calls : ∀ e ∈ es, e.CallsOnly B.calls)
    (usable : B.Usable k f) : Eval.Tied B k (evalAll ev f es) (evalAll ev' f es) := by
  induction es with
  | nil => exact tied_pure _
  | cons e es ih =>
      have ⟨first, rest⟩ := List.forall_mem_cons.mp calls
      exact (h.eval first usable).bind fun value => (ih rest).bind fun values => tied_pure _

theorem evalAssign {target value : Expr} (targets : target.CallsOnly B.calls)
    (values : value.CallsOnly B.calls) (usable : B.Usable k f) (op : AssignOp) (line : Nat) :
    Eval.Tied B k (evalAssign ev f op target value line)
      (evalAssign ev' f op target value line) := by
  refine (h.eval values usable).bind fun value => ?_
  cases target with
  | identifier _ name => exact tied_assignName f op name value line
  | member _ object name =>
      exact (h.eval (Expr.callsOnly_member.mp targets) usable).bind fun object =>
        tied_assignField object op name value line
  | number | string | bool | null | binary | unary | call | assign => exact tied_fail _ _

theorem execAll {ss : List Stmt} (calls : ∀ s ∈ ss, s.CallsOnly B.calls) (usable : B.Usable k f)
    (last : Value) : Eval.Tied B k (execAll ev f last ss) (execAll ev' f last ss) := by
  induction ss generalizing last with
  | nil => exact tied_pure _
  | cons s ss ih =>
      have ⟨first, rest⟩ := List.forall_mem_cons.mp calls
      refine (h.exec first usable).bind fun flow => ?_
      cases flow with
      | normal value => exact ih rest value
      | returned value => exact tied_pure _

theorem bindArguments {args : List Expr} (calls : ∀ e ∈ args, e.CallsOnly B.calls)
    (usable : B.Usable k f) (frame : FrameId) (params : List String) :
    Eval.Tied B k (bindArguments ev f frame params args)
      (bindArguments ev' f frame params args) := by
  induction params generalizing args with
  | nil => exact tied_pure _
  | cons param params ih =>
      cases args with
      | nil => exact tied_pure _
      | cons e es =>
          have ⟨first, rest⟩ := List.forall_mem_cons.mp calls
          exact (h.eval first usable).bind fun value =>
            (tied_define frame param value).bind fun _ => ih rest

/-- The frame of a call lies in the one that the function was declared in, and that of the body in
the frame of the call. -/
theorem callFunction {args : List Expr} (calls : ∀ e ∈ args, e.CallsOnly B.calls)
    (usable : B.Usable k f) (id : FunctionId) (line : Nat) :
    Eval.Tied B k (callFunction ev f id args line) (callFunction ev' f id args line) := by
  refine ⟨(h.runs.callFunction f id args line).stepwise, ties_get fun m m' tied count => ?_⟩
  rw [B.store tied]
  have bodies := B.bodies tied id
  have scope := B.scopes tied id
  generalize m.store.function id = function at bodies scope ⊢
  dsimp only
  split
  · refine ties_newFrame scope fun frame inside => ?_
    have usable : B.Usable (frame + 1) f := usable.mono (by omega)
    refine ((h.bindArguments calls usable frame _).bind fun _ => ?_).ties
    cases body : function.body with
    | none => exact tied_pure _
    | some body' =>
        refine ⟨runs_newFrame trivial fun inner =>
          (h.runs.execAll inner .null body').bind fun flow => runs_pure _, ?_⟩
        refine ties_newFrame (.inr (Nat.lt_succ_self _)) fun inner _ => ?_
        exact ((h.execAll (bodies body' body) (.inr (Nat.lt_succ_self _)) .null).bind fun flow =>
          tied_pure _).ties
  · exact (tied_fail _ _).ties

theorem callValue {callee : Expr} {args : List Expr} (callees : callee.CallsOnly B.calls)
    (calls : ∀ e ∈ args, e.CallsOnly B.calls) (usable : B.Usable k f) (line : Nat) :
    Eval.Tied B k (callValue ev f callee args line) (callValue ev' f callee args line) := by
  refine (h.eval callees usable).bind fun value => ?_
  cases value with
  | functionRef id => exact h.callFunction calls usable id line
  | null | number | string | bool | classRef | instanceRef | host => exact tied_fail _ _

/-- What a called name is dispatched to does not depend on the other names in the registry. -/
theorem callName {callee : Expr} {name : String} {args : List Expr} (called : B.calls name)
    (callees : callee.CallsOnly B.calls) (calls : ∀ e ∈ args, e.CallsOnly B.calls)
    (usable : B.Usable k f) (line : Nat) :
    Eval.Tied B k (callName ev f callee name args line)
      (callName ev' f callee name args line) := by
  refine ⟨(h.runs.callName f callee name args line).stepwise, ?_⟩
  unfold Evaluator.callName
  split
  · rename_i builtin found
    have called : B.calls builtin.signature.name := by rwa [Builtin.name_of_ofName? found]
    exact ((h.evalAll calls usable).bind fun values => tied_callBuiltin called values).ties
  · refine ties_get fun m m' tied count => ?_
    have usable := usable.mono count
    rw [show m'.plugins = m.plugins by rw [B.same tied]]
    split
    · exact ((h.evalAll calls usable).bind fun values => tied_callPlugin name values).ties
    · refine ties_get fun m m' tied count => ?_
      have usable := usable.mono count
      rw [B.contains tied called]
      split
      · exact ((h.evalAll calls usable).bind fun values => tied_callRegistered called values).ties
      · exact (h.callValue callees calls usable line).ties

/-- One level of evaluation takes expressions the same way if the levels below do. -/
theorem evalStep {e : Expr} (calls : e.CallsOnly B.calls) (usable : B.Usable k f) :
    Eval.Tied B k (evalStep ev e f) (evalStep ev' e f) := by
  cases e with
  | number | string | bool | null => exact tied_pure _
  | identifier pos name => exact tied_evalName f name pos.line
  | binary pos op left right =>
      rw [Expr.callsOnly_binary] at calls
      refine (h.eval calls.1 usable).bind fun left => (h.eval calls.2 usable).bind fun right => ?_
      refine ⟨runs_get.bind fun m => ?_, ties_get fun m m' tied _ => ?_⟩
      · split
        · exact runs_pure _
        · exact runs_fail _ _
      · rw [B.store tied]
        split
        · exact (tied_pure _).ties
        · exact (tied_fail _ _).ties
  | unary pos op operand =>
      exact (h.eval (Expr.callsOnly_unary.mp calls) usable).bind fun value => tied_pure _
  | call pos callee args =>
      obtain ⟨called, callees, arguments⟩ := Expr.callsOnly_call.mp calls
      cases callee with
      | identifier _ name => exact h.callName (called name rfl) callees arguments usable pos.line
      | number | string | bool | null | binary | unary | call | member | assign =>
          exact h.callValue callees arguments usable pos.line
  | member pos object name =>
      exact (h.eval (Expr.callsOnly_member.mp calls) usable).bind fun object =>
        tied_evalMember object name pos.line
  | assign pos op target value =>
      rw [Expr.callsOnly_assign] at calls
      exact h.evalAssign calls.1 calls.2 usable op pos.line

theorem declareMembers {members : List Stmt} (calls : ∀ s ∈ members, s.CallsOnly B.calls)
    (usable : B.Usable k f) (c : ClassObject) :
    Eval.Tied B k (declareMembers ev f c members) (declareMembers ev' f c members) := by
  induction members generalizing c with
  | nil => exact tied_pure _
  | cons s members ih =>
      have ⟨first, rest⟩ := List.forall_mem_cons.mp calls
      cases s with
      | function _ name params body modifiers =>
          rw [Stmt.callsOnly_function] at first
          refine (tied_newFunction ?_ ?_).bind fun id => ih rest _
          · rintro _ ⟨⟩
            exact first
          · rintro _ ⟨⟩
            exact usable
      | property _ name value modifiers =>
          rw [Stmt.callsOnly_property] at first
          exact (h.evalOption first usable).bind fun value => ih rest _
      | expression | varDecl | returning | branch | whileLoop | forLoop | block | classDecl =>
          exact ih rest c

theorem holds {e : Option Expr} (calls : ∀ a ∈ e, a.CallsOnly B.calls) (usable : B.Usable k f) :
    Eval.Tied B k (holds ev f e) (holds ev' f e) := by
  cases e with
  | none => exact tied_pure _
  | some e => exact (h.eval (calls e rfl) usable).bind fun value => tied_pure _

theorem loopRound {test step : Option Expr} {body : Stmt}
    (tests : ∀ e ∈ test, e.CallsOnly B.calls) (steps : ∀ e ∈ step, e.CallsOnly B.calls)
    (bodies : body.CallsOnly B.calls) (usable : B.Usable k f) (last : Value) :
    Eval.Tied B k (loopRound ev f test step body last) (loopRound ev' f test step body last) := by
  refine (h.holds tests usable).bind fun goesOn => ?_
  split
  · refine (h.exec bodies usable).bind fun flow => ?_
    cases flow with
    | normal value => exact ((h.evalOption steps usable).map _).bind fun _ => tied_pure _
    | returned value => exact tied_pure _
  · exact tied_pure _

/-- One level of execution takes statements the same way if the levels below do. -/
theorem execStep {s : Stmt} (calls : s.CallsOnly B.calls) (n : Nat) (usable : B.Usable k f) :
    Eval.Tied B k (execStep ev n s f) (execStep ev' n s f) := by
  have runs := (h.runs.execStep n s f).stepwise
  cases s with
  | expression _ e =>
      exact (h.eval (Stmt.callsOnly_expression.mp calls) usable).bind fun value => tied_pure _
  | varDecl _ name value =>
      exact (h.evalOption (Stmt.callsOnly_varDecl.mp calls) usable).bind fun value =>
        (tied_define f name value).bind fun _ => tied_pure _
  | property _ name value modifiers =>
      exact (h.evalOption (Stmt.callsOnly_property.mp calls) usable).bind fun value =>
        (tied_define f name value).bind fun _ => tied_pure _
  | returning _ value =>
      exact (h.evalOption (Stmt.callsOnly_returning.mp calls) usable).bind fun value => tied_pure _
  | branch _ test consequent alternative =>
      obtain ⟨tests, first, other⟩ := Stmt.callsOnly_branch.mp calls
      refine (h.eval tests usable).bind fun test => ?_
      split
      · exact h.exec first usable
      · cases alternative with
        | none => exact tied_pure _
        | some s => exact h.exec (other s rfl) usable
  | whileLoop _ test body =>
      obtain ⟨tests, bodies⟩ := Stmt.callsOnly_whileLoop.mp calls
      exact .repeated (h.loopRound (by simpa using tests) (by simp) bodies usable) n _
  | forLoop _ start test step body =>
      obtain ⟨starts, tests, steps, bodies⟩ := Stmt.callsOnly_forLoop.mp calls
      refine ⟨runs, ties_newFrame usable fun frame _ => ?_⟩
      have inside : B.Usable (frame + 1) frame := .inr (Nat.lt_succ_self _)
      have rounds := Eval.Tied.repeated (h.loopRound tests steps bodies inside) n .null
      cases start with
      | none => exact rounds.ties
      | some first =>
          exact (((h.exec (starts first rfl) inside).map _).bind fun _ => rounds).ties
  | block _ body =>
      refine ⟨runs, ties_newFrame usable fun frame _ => ?_⟩
      exact (h.execAll (Stmt.callsOnly_block.mp calls) (.inr (Nat.lt_succ_self _)) .null).ties
  | function _ name params body modifiers =>
      rw [Stmt.callsOnly_function] at calls
      refine (tied_newFunction ?_ ?_).bind fun id =>
        (tied_define f name _).bind fun _ => tied_pure _
      · rintro _ ⟨⟩
        exact calls
      · rintro _ ⟨⟩
        exact usable
  | classDecl _ name members isStatic =>
      refine ⟨runs, ties_newFrame usable fun frame inside => ?_⟩
      refine ((h.declareMembers (Stmt.callsOnly_classDecl.mp calls) (.inr (Nat.lt_succ_self _))
        _).bind fun c => ?_).ties
      exact (tied_newClass c).bind fun id => (tied_define f name _).bind fun _ => tied_pure _

/-- Programs that call only the given names run the same way. -/
theorem runAll {program : Program} (calls : ∀ s ∈ program, s.CallsOnly B.calls)
    (usable : B.Usable k Scopes.globals) :
    Eval.Tied B k (runAll ev program) (runAll ev' program) := by
  induction program with
  | nil => exact tied_pure _
  | cons s ss ih =>
      have ⟨first, rest⟩ := List.forall_mem_cons.mp calls
      refine (h.exec first usable).bind fun flow => ?_
      cases flow with
      | normal value => exact ih rest
      | returned value => exact tied_pure _

end Tied

/-- The same trees are taken the same way, whatever the fuel. -/
theorem tied_ofFuel (fuel : Nat) : Tied B (ofFuel fuel) (ofFuel fuel) := by
  induction fuel with
  | zero => exact ⟨runs_ofFuel 0, fun _ _ => tied_throw _, fun _ _ => tied_throw _⟩
  | succ n ih =>
      exact ⟨runs_ofFuel (n + 1), fun calls => ih.evalStep calls, fun calls => ih.execStep calls n⟩

/-! ## Observers -/

/-- Runs expressions and statements as they are run without it, but lets an observer act before each
of them, who is told the frame. -/
def observed (observer : FrameId → Expr ⊕ Stmt → Eval Unit) : Nat → Evaluator
  | 0 => ofFuel 0
  | n + 1 =>
      ⟨fun e f => observer f (.inl e) >>= fun _ => evalStep (observed observer n) e f,
        fun s f => observer f (.inr s) >>= fun _ => execStep (observed observer n) n s f⟩

/-- An observer is not noticed if he idles wherever a run can come to. -/
theorem tied_observed {observer : FrameId → Expr ⊕ Stmt → Eval Unit}
    (idles : ∀ m m', B.rel m m' → ∀ f, B.Usable m.frameCount f → ∀ t, observer f t m' = .ok () m')
    (fuel : Nat) : Tied B (ofFuel fuel) (observed observer fuel) := by
  induction fuel with
  | zero => exact tied_ofFuel 0
  | succ n ih =>
      -- what the observer does comes first, and is nothing
      have runs := runs_ofFuel (n + 1)
      refine ⟨runs, fun calls usable => ⟨(runs.eval _ _).stepwise, fun m m' tied count => ?_⟩,
        fun calls usable => ⟨(runs.exec _ _).stepwise, fun m m' tied count => ?_⟩⟩
      · simp only [observed, Bind.bind, EStateM.bind, idles m m' tied _ (usable.mono count)]
        exact (ih.evalStep calls usable).ties m m' tied count
      · simp only [observed, Bind.bind, EStateM.bind, idles m m' tied _ (usable.mono count)]
        exact (ih.execStep calls n usable).ties m m' tied count

end Evaluator

namespace Session

variable {B : Bond} {program : Program}

/-- Running a program keeps interpreters tied, whether or not it succeeds. -/
theorem tied_interpret (calls : ∀ s ∈ program, s.CallsOnly B.calls) {k : Nat}
    (usable : B.Usable k Scopes.globals) (fuel : Nat) :
    Eval.Tied B k (interpret fuel program) (interpret fuel program) := by
  refine ⟨(runs_interpret fuel program).stepwise, fun m m' tied count => ?_⟩
  have ran := ((Evaluator.tied_ofFuel fuel).runAll calls usable).ties m m' tied count
  rw [interpret_eq, interpret_eq, executeAll_eq]
  generalize (Evaluator.ofFuel fuel).runAll program m = r at ran
  generalize (Evaluator.ofFuel fuel).runAll program m' = r' at ran
  cases ran with
  | ok tied grown => exact .ok tied grown
  | @error halt n n' tied grown =>
      cases halt with
      | failed e =>
          have written := B.change tied
            (.console (n.console.writeLine (ScriptError.stopped e).text)) trivial
          have same : n'.console = n.console := by rw [B.same tied]
          refine .ok ?_ grown
          simpa only [writeLine, same, Change.apply] using written
      | exhausted => exact .error tied grown
  | astray lost =>
      refine .astray ?_
      match r, lost with
      | .ok _ _, lost | .error .exhausted _, lost => exact lost
      | .error (.failed e) n, lost =>
          exact B.stays (l := ⟨0, fun _ => True, fun _ _ => True⟩) (.console n _) lost

end Session

end Scriptlet
