import Scriptlet.Proofs.Eval.Likeness
import Scriptlet.Proofs.Eval.Steps
import Scriptlet.Proofs.Host.Objects

/-! # Running keeps interpreters sound

Evaluation makes no references up: whatever a script yields exists, also if it comes from a function
of the host, and whatever a script changes leaves a sound interpreter sound, also if it fails. So a
watcher that looks in between and minds only unsound interpreters is never noticed. -/

namespace Scriptlet

open Store

/-! ## Single steps -/

namespace Machine

/-- The second interpreter is reached from the first by steps of a running script, and no reference
leads elsewhere after any of them. -/
def StepsWithin : Machine → Machine → Prop :=
  Relation.ReflTransGen fun m n => (∃ l, Step l m n) ∧ m.store.Within n.store

theorem Steps.stepsWithin {l : Licence} {m n : Machine} (h : Steps l m n) : StepsWithin m n :=
  h.lift id fun _ _ step => ⟨⟨l, step⟩, step.within⟩

end Machine

/-! ## Computations -/

namespace Eval

open Machine

variable {α β : Type} {s t : Store}

/-- Two runs from the first interpreter that end in the same way, with a sound interpreter that has
what the first has. What they yield is as required. -/
inductive Outcome (m : Machine) (P : α → Store → Prop) :
    EStateM.Result Halt Machine α → EStateM.Result Halt Machine α → Prop where
  | ok {a : α} {n : Machine} : m.Grows n → P a n.store → Outcome m P (.ok a n) (.ok a n)
  | error {halt : Halt} {n : Machine} : m.Grows n → Outcome m P (.error halt n) (.error halt n)

/-- Two computations that do the same in every sound interpreter that has what `s` has. -/
def Agree (s : Store) (P : α → Store → Prop) (x y : Eval α) : Prop :=
  ∀ m : Machine, m.Sound → s.Within m.store → Outcome m P (x m) (y m)

abbrev anything (_ : α) (_ : Store) : Prop := True

abbrev existing (v : Value) (s : Store) : Prop := s.Has v

abbrev ending (flow : Flow) (s : Store) : Prop := s.Has flow.value

variable {P : α → Store → Prop} {Q : β → Store → Prop}

theorem Outcome.grown {m n : Machine} {r r' : EStateM.Result Halt Machine α}
    (h : Outcome n P r r') (grown : m.Grows n) : Outcome m P r r' := by
  cases h with
  | ok later required => exact .ok (grown.trans later) required
  | error later => exact .error (grown.trans later)

theorem Outcome.eq {m : Machine} {r r' : EStateM.Result Halt Machine α} (h : Outcome m P r r') :
    r = r' := by
  cases h <;> rfl

theorem Agree.mono {x y : Eval α} (h : Agree s P x y) (within : s.Within t) : Agree t P x y :=
  fun m sound later => h m sound (within.trans later)

theorem Agree.of_ok {x : Eval α} (h : Agree s P x x) {m n : Machine} (sound : m.Sound)
    (within : s.Within m.store) {a : α} (result : x m = .ok a n) :
    m.Grows n ∧ P a n.store := by
  have outcome := h m sound within
  rw [result] at outcome
  cases outcome with
  | ok grown required => exact ⟨grown, required⟩

/-- However a computation ends, it leaves a sound interpreter behind. -/
theorem Agree.after {x : Eval α} (h : Agree s P x x) {m : Machine} (sound : m.Sound)
    (within : s.Within m.store) : m.Grows (x.after m) := by
  have outcome := h m sound within
  unfold Eval.after
  generalize x m = r at outcome
  cases outcome with
  | ok grown | error grown => exact grown

theorem agree_pure {a : α} (required : ∀ t, s.Within t → P a t) : Agree s P (pure a) (pure a) :=
  fun _ sound within => .ok sound.grows_refl (required _ within)

theorem agree_value {v : Value} (has : s.Has v) : Agree s existing (pure v) (pure v) :=
  agree_pure fun _ within => has.mono within

theorem agree_throw (halt : Halt) : Agree s P (throw halt) (throw halt) :=
  fun _ sound _ => .error sound.grows_refl

theorem agree_fail (cause : RuntimeCause) (line : Nat) :
    Agree s P (fail cause line) (fail cause line) :=
  agree_throw _

/-- What comes after a computation may use what it yields, in any later store. -/
theorem Agree.bind {x y : Eval α} {f g : α → Eval β} (h : Agree s P x y)
    (next : ∀ t, s.Within t → ∀ a, P a t → Agree t Q (f a) (g a)) :
    Agree s Q (x >>= f) (y >>= g) := by
  intro m sound within
  have first := h m sound within
  simp only [Bind.bind, EStateM.bind]
  generalize x m = r at first
  generalize y m = r' at first
  cases first with
  | @ok a n grown required =>
      have later := next n.store (within.trans grown.within) a required
      exact (later n grown.sound (.refl _)).grown grown
  | error grown => exact .error grown

theorem Agree.map {x y : Eval α} (h : Agree s P x y) {f : α → β}
    (required : ∀ t, s.Within t → ∀ a, P a t → ∀ u, t.Within u → Q (f a) u) :
    Agree s Q (f <$> x) (f <$> y) := by
  rw [map_eq_pure_bind, map_eq_pure_bind]
  exact h.bind fun t within a has => agree_pure (required t within a has)

theorem agree_get {f g : Machine → Eval α}
    (next : ∀ m : Machine, m.Sound → s.Within m.store → Agree m.store P (f m) (g m)) :
    Agree s P (get >>= f) (get >>= g) :=
  fun m sound within => next m sound within m sound (.refl _)

theorem agree_step {f : Machine → α × Machine}
    (h : ∀ m : Machine, m.Sound → s.Within m.store →
      m.Grows (f m).2 ∧ P (f m).1 (f m).2.store) : Agree s P (step f) (step f) := by
  intro m sound within
  obtain ⟨grown, required⟩ := h m sound within
  exact .ok grown required

theorem agree_onStore {f : Store → α × Store}
    (h : ∀ t : Store, t.Sound → s.Within t → t.Within (f t).2 ∧ (f t).2.Sound ∧ P (f t).1 (f t).2) :
    Agree s P (onStore f) (onStore f) := by
  refine agree_step fun m sound within => ?_
  obtain ⟨grown, kept, required⟩ := h m.store sound.store within
  exact ⟨sound.withStore grown kept, required⟩

theorem agree_newFrame (parent : FrameId) :
    Agree s anything (newFrame parent) (newFrame parent) :=
  agree_onStore fun t sound _ => ⟨t.within_scopes _, sound.push (some parent), trivial⟩

theorem agree_define (f : FrameId) (name : String) {v : Value} (has : s.Has v) :
    Agree s anything (define f name v) (define f name v) :=
  agree_onStore fun t sound within =>
    ⟨t.within_scopes _, sound.define f name (has.mono within), trivial⟩

theorem agree_lookup (f : FrameId) (name : String) (line : Nat) :
    Agree s existing (lookup f name line) (lookup f name line) := by
  refine agree_get fun m sound _ => ?_
  split
  · rename_i v found
    exact agree_value (sound.store.has_of_get? found)
  · exact agree_fail _ _

theorem agree_assign (f : FrameId) (name : String) {v : Value} (has : s.Has v) (line : Nat) :
    Agree s anything (assign f name v line) (assign f name v line) := by
  refine agree_get fun m _ within => ?_
  split
  · exact agree_define _ name (has.mono within)
  · exact agree_fail _ _

theorem agree_newFunction (f : FunctionObject) :
    Agree s (fun id t => t.Has (.functionRef id)) (newFunction f) (newFunction f) :=
  agree_onStore fun t sound _ =>
    ⟨(t.addFunction_extends f).within, sound.addFunction f, t.has_addFunction f⟩

theorem agree_newClass {c : ClassObject} (fits : c.Fits s) :
    Agree s (fun id t => t.Has (.classRef id)) (newClass c) (newClass c) :=
  agree_onStore fun t sound within =>
    ⟨(t.addClass_extends c).within, sound.addClass (fits.mono within), t.has_addClass c⟩

theorem agree_instantiate {id : ClassId} (has : s.Has (.classRef id)) (line : Nat) :
    Agree s existing (instantiate id line) (instantiate id line) := by
  obtain ⟨c, found⟩ := has
  refine agree_get fun m _ within => ?_
  have here := within.classes id c found
  rw [classObject_eq here]
  dsimp only
  split
  · exact agree_fail _ _
  · rename_i notStatic
    refine Agree.bind (P := fun new t => t.Has (.instanceRef new)) ?_ fun t _ new => agree_value
    refine agree_onStore fun t sound later => ⟨(t.addInstance_extends id).within, ?_, ?_⟩
    · exact sound.addInstance (later.classes id c here) (by simpa using notStatic)
    · exact t.has_addInstance id

/-- Rounds that go on or end with values that exist. -/
theorem Agree.repeated {round round' : Value → Eval (Value ⊕ Flow)}
    (h : ∀ t, s.Within t → ∀ v, t.Has v →
      Agree t (fun r u => r.elim u.Has (ending · u)) (round v) (round' v)) (n : Nat) {v : Value}
    (start : s.Has v) : Agree s ending (Eval.repeated round n v) (Eval.repeated round' n v) := by
  induction n generalizing s v with
  | zero => exact agree_throw _
  | succ n ih =>
      refine (h s (.refl s) v start).bind fun t within r required => ?_
      cases r with
      | inl next => exact ih (fun u later => h u (within.trans later)) required
      | inr flow => exact agree_pure fun u later => Has.mono required later

end Eval

/-! ## Expressions and statements -/

theorem BinaryOp.has_apply {store s : Store} {op : BinaryOp} {left right v : Value}
    (h : op.apply store left right = .ok v) : s.Has v := by
  cases op <;> simp only [apply] at h
  case add =>
    unfold Value.add at h
    split at h <;> cases h <;> trivial
  case div =>
    split at h <;> cases h
    trivial
  all_goals
    cases h
    trivial

theorem UnaryOp.has_apply (s : Store) (op : UnaryOp) (v : Value) : s.Has (op.apply v) := by
  cases op <;> trivial

theorem AssignOp.has_apply {s : Store} (op : AssignOp) (current : Value) {v : Value}
    (has : s.Has v) : s.Has (op.apply current v) := by
  cases op with
  | set => exact has
  | add | sub => trivial

theorem Store.has_toValue (s : Store) (line : Option String) : s.Has (toValue line) := by
  cases line <;> trivial

namespace Evaluator

open Eval

/-- Evaluators that do the same in every sound interpreter that has what `s` has. -/
structure Agree (s : Store) (ev ev' : Evaluator) : Prop where
  eval : ∀ e f, Eval.Agree s existing (ev.eval e f) (ev'.eval e f)
  exec : ∀ stmt f, Eval.Agree s ending (ev.exec stmt f) (ev'.exec stmt f)

variable {ev ev' : Evaluator} {s t : Store}

theorem Agree.mono (h : Agree s ev ev') (within : s.Within t) : Agree t ev ev' :=
  ⟨fun e f => (h.eval e f).mono within, fun stmt f => (h.exec stmt f).mono within⟩

theorem agree_evalName (f : FrameId) (name : String) (line : Nat) :
    Eval.Agree s existing (evalName f name line) (evalName f name line) := by
  refine (agree_lookup f name line).bind fun t _ v has => ?_
  cases v with
  | classRef id => exact agree_instantiate has line
  | null | number | string | bool | functionRef | instanceRef | host => exact agree_value has

theorem agree_evalMember {object : Value} (has : s.Has object) (name : String) (line : Nat) :
    Eval.Agree s existing (evalMember object name line) (evalMember object name line) := by
  refine agree_get fun m sound within => ?_
  have here := has.mono within
  cases object with
  | instanceRef id =>
      dsimp only
      split
      · rename_i v found
        exact agree_value (sound.store.has_instanceMember? here found)
      · exact agree_fail _ _
  | classRef id =>
      dsimp only
      split
      · rename_i v found
        exact agree_value (sound.store.has_classMember? here found)
      · exact agree_fail _ _
  | null | number | string | bool | functionRef | host => exact agree_fail _ _

theorem agree_assignName (f : FrameId) (op : AssignOp) (name : String) {v : Value}
    (has : s.Has v) (line : Nat) :
    Eval.Agree s existing (assignName f op name v line) (assignName f op name v line) := by
  have store {t : Store} (within : s.Within t) (current : Value) : Eval.Agree t existing
      (assign f name (op.apply current v) line >>= fun _ => pure (op.apply current v))
      (assign f name (op.apply current v) line >>= fun _ => pure (op.apply current v)) := by
    have stored := op.has_apply current (has.mono within)
    exact (agree_assign f name stored line).bind fun u later _ _ => agree_value (stored.mono later)
  unfold assignName
  dsimp only
  split
  · exact store (.refl s) _
  · exact (agree_lookup f name line).bind fun t within current _ => store within current

theorem agree_assignField (object : Value) (op : AssignOp) (name : String) {v : Value}
    (has : s.Has v) (line : Nat) :
    Eval.Agree s existing (assignField object op name v line)
      (assignField object op name v line) := by
  unfold assignField
  cases object with
  | instanceRef id =>
      refine agree_onStore fun t sound within => ?_
      have stored := op.has_apply ((t.field? id name).getD (.number 0.0)) (has.mono within)
      have kept := t.within_setField id name (op.apply ((t.field? id name).getD (.number 0.0)) v)
      exact ⟨kept, sound.setField id name stored, stored.mono kept⟩
  | null | number | string | bool | functionRef | classRef | host => exact agree_fail _ _

theorem agree_callBuiltin (builtin : Builtin) (args : List Value) :
    Eval.Agree s existing (callBuiltin builtin args) (callBuiltin builtin args) := by
  unfold callBuiltin
  split
  · exact agree_step fun m sound _ => ⟨sound.writeLine _, trivial⟩
  · exact agree_step fun m sound _ => ⟨sound.writeLine _, trivial⟩
  · exact agree_step fun m sound _ => ⟨sound.withConsole _, has_toValue m.store _⟩
  · exact agree_value trivial
  · exact agree_value trivial
  · exact agree_step fun m sound _ => ⟨sound.loadByName _, trivial⟩
  · exact agree_step fun m sound _ => ⟨sound.unload _, trivial⟩
  · exact agree_value trivial
  · exact agree_value trivial
  · exact agree_step fun m sound _ => ⟨sound.writeLine _, trivial⟩

namespace Agree

variable (h : Agree s ev ev')
include h

theorem evalOption (f : FrameId) (e : Option Expr) :
    Eval.Agree s existing (evalOption ev f e) (evalOption ev' f e) := by
  cases e with
  | none => exact agree_value trivial
  | some e => exact h.eval e f

theorem evalAll (f : FrameId) (es : List Expr) :
    Eval.Agree s (fun vs t => ∀ v ∈ vs, t.Has v) (evalAll ev f es) (evalAll ev' f es) := by
  induction es generalizing s with
  | nil => exact agree_pure fun _ _ => nofun
  | cons e es ih =>
      refine (h.eval e f).bind fun t within v has => ?_
      refine (ih (h.mono within)).bind fun u later vs all => agree_pure fun w last => ?_
      exact List.forall_mem_cons.mpr
        ⟨(has.mono later).mono last, fun v mem => (all v mem).mono last⟩

theorem evalAssign (f : FrameId) (op : AssignOp) (target value : Expr) (line : Nat) :
    Eval.Agree s existing (evalAssign ev f op target value line)
      (evalAssign ev' f op target value line) := by
  refine (h.eval value f).bind fun t within v has => ?_
  cases target with
  | identifier pos name => exact agree_assignName f op name has line
  | member pos object name =>
      exact ((h.mono within).eval object f).bind fun u later object _ =>
        agree_assignField object op name (has.mono later) line
  | number | string | bool | null | binary | unary | call | assign => exact agree_fail _ _

theorem execAll (f : FrameId) (last : Value) (has : s.Has last) (body : List Stmt) :
    Eval.Agree s ending (execAll ev f last body) (execAll ev' f last body) := by
  induction body generalizing s last with
  | nil => exact agree_pure fun _ within => has.mono within
  | cons stmt body ih =>
      refine (h.exec stmt f).bind fun t within flow has => ?_
      cases flow with
      | normal v => exact ih (h.mono within) v has
      | returned v => exact agree_pure fun _ later => Has.mono has later

theorem bindArguments (f frame : FrameId) (params : List String) (args : List Expr) :
    Eval.Agree s anything (bindArguments ev f frame params args)
      (bindArguments ev' f frame params args) := by
  induction params generalizing s args with
  | nil => exact agree_pure fun _ _ => trivial
  | cons param params ih =>
      cases args with
      | nil => exact agree_pure fun _ _ => trivial
      | cons arg args =>
          refine (h.eval arg f).bind fun t within v has => ?_
          exact (agree_define frame param has).bind fun u later _ _ =>
            ih (h.mono (within.trans later)) args

theorem callFunction (f : FrameId) (id : FunctionId) (args : List Expr) (line : Nat) :
    Eval.Agree s existing (callFunction ev f id args line) (callFunction ev' f id args line) := by
  refine agree_get fun m _ within => ?_
  dsimp only
  split
  · refine (agree_newFrame _).bind fun t later frame _ => ?_
    have called := h.mono (within.trans later)
    refine (called.bindArguments f frame _ args).bind fun t later _ _ => ?_
    split
    · exact agree_value trivial
    · rename_i body _
      refine (agree_newFrame frame).bind fun u last inner _ => ?_
      have inside := (called.mono (later.trans last)).execAll inner .null trivial body
      exact inside.bind fun w _ flow has => agree_value has
  · exact agree_fail _ _

theorem callValue (f : FrameId) (callee : Expr) (args : List Expr) (line : Nat) :
    Eval.Agree s existing (callValue ev f callee args line) (callValue ev' f callee args line) := by
  refine (h.eval callee f).bind fun t within v _ => ?_
  cases v with
  | functionRef id => exact (h.mono within).callFunction f id args line
  | null | number | string | bool | classRef | instanceRef | host => exact agree_fail _ _

theorem callName (f : FrameId) (callee : Expr) (name : String) (args : List Expr) (line : Nat) :
    Eval.Agree s existing (callName ev f callee name args line)
      (callName ev' f callee name args line) := by
  unfold Evaluator.callName
  split
  · exact (h.evalAll f args).bind fun t _ values _ => agree_callBuiltin _ values
  · refine agree_get fun m _ within => ?_
    split
    · refine ((h.mono within).evalAll f args).bind fun t _ values all => ?_
      refine agree_step fun m sound later => ?_
      exact sound.callPlugin name fun v mem => (all v mem).mono later
    · refine agree_get fun m _ later => ?_
      have called := h.mono (within.trans later)
      split
      · refine (called.evalAll f args).bind fun t _ values all => ?_
        refine agree_step fun m sound later => ?_
        exact sound.callRegistered name fun v mem => (all v mem).mono later
      · exact called.callValue f callee args line

/-- One level of evaluation keeps interpreters sound if the levels below do. -/
theorem evalStep (e : Expr) (f : FrameId) :
    Eval.Agree s existing (evalStep ev e f) (evalStep ev' e f) := by
  cases e with
  | number | string | bool | null => exact agree_value trivial
  | identifier pos name => exact agree_evalName f name pos.line
  | binary pos op left right =>
      refine (h.eval left f).bind fun t within left _ => ?_
      refine ((h.mono within).eval right f).bind fun u _ right _ => ?_
      refine agree_get fun m _ _ => ?_
      split
      · rename_i v result
        exact agree_value (BinaryOp.has_apply result)
      · exact agree_fail _ _
  | unary pos op operand =>
      exact (h.eval operand f).bind fun t _ v _ => agree_value (op.has_apply t v)
  | call pos callee args =>
      cases callee with
      | identifier namePos name => exact h.callName f _ name args pos.line
      | number | string | bool | null | binary | unary | call | member | assign =>
          exact h.callValue f _ args pos.line
  | member pos object name =>
      exact (h.eval object f).bind fun t _ object has => agree_evalMember has name pos.line
  | assign pos op target value => exact h.evalAssign f op target value pos.line

theorem declareMembers (frame : FrameId) {c : ClassObject} (fits : c.Fits s) (members : List Stmt) :
    Eval.Agree s (fun c t => c.Fits t) (declareMembers ev frame c members)
      (declareMembers ev' frame c members) := by
  induction members generalizing s c with
  | nil => exact agree_pure fun _ within => fits.mono within
  | cons member members ih =>
      cases member with
      | function pos name params body modifiers =>
          refine (agree_newFunction _).bind fun t within id has => ?_
          have kept := fits.mono within
          refine ih (h.mono within) ⟨fun other k found => ?_, kept.properties⟩
          rw [Std.TreeMap.getElem?_insert] at found
          split at found
          · exact Option.some.inj found ▸ has
          · exact kept.methods other k found
      | property pos name initializer modifiers =>
          refine (h.evalOption frame initializer).bind fun t within v has => ?_
          have kept := fits.mono within
          exact ih (h.mono within) ⟨kept.methods, kept.properties.insert name has⟩
      | expression | varDecl | returning | branch | whileLoop | forLoop | block | classDecl =>
          exact ih h fits

theorem holds (f : FrameId) (condition : Option Expr) :
    Eval.Agree s anything (holds ev f condition) (holds ev' f condition) := by
  cases condition with
  | none => exact agree_pure fun _ _ => trivial
  | some e => exact (h.eval e f).bind fun _ _ _ _ => agree_pure fun _ _ => trivial

theorem loopRound (f : FrameId) (condition step : Option Expr) (body : Stmt) {last : Value}
    (has : s.Has last) :
    Eval.Agree s (fun r t => r.elim t.Has (ending · t)) (loopRound ev f condition step body last)
      (loopRound ev' f condition step body last) := by
  refine (h.holds f condition).bind fun t within goesOn _ => ?_
  have goOn := h.mono within
  split
  · refine (goOn.exec body f).bind fun u later flow has => ?_
    cases flow with
    | normal v =>
        refine Eval.Agree.bind (P := anything) ?_ fun w last _ _ => agree_pure fun _ later =>
          (Has.mono has last).mono later
        exact ((goOn.mono later).evalOption f step).map fun _ _ _ _ _ _ => trivial
    | returned v => exact agree_pure fun _ later => Has.mono has later
  · exact agree_pure fun _ later => (has.mono within).mono later

theorem execStep (n : Nat) (stmt : Stmt) (f : FrameId) :
    Eval.Agree s ending (execStep ev n stmt f) (execStep ev' n stmt f) := by
  have loop {t : Store} (within : s.Within t) (f : FrameId) (condition step : Option Expr)
      (body : Stmt) : Eval.Agree t ending
        (Eval.repeated (Evaluator.loopRound ev f condition step body) n .null)
        (Eval.repeated (Evaluator.loopRound ev' f condition step body) n .null) :=
    .repeated (fun u later v has =>
      (h.mono (within.trans later)).loopRound f condition step body has) n trivial
  cases stmt with
  | expression pos e =>
      exact (h.eval e f).bind fun _ _ v has => agree_pure fun _ later => has.mono later
  | varDecl pos name initializer | property pos name initializer =>
      refine (h.evalOption f initializer).bind fun t within v has => ?_
      exact (agree_define f name has).bind fun u later _ _ => agree_pure fun _ last =>
        (has.mono later).mono last
  | returning pos value =>
      exact (h.evalOption f value).bind fun _ _ v has => agree_pure fun _ later => has.mono later
  | branch pos condition consequent alternative =>
      refine (h.eval condition f).bind fun t within test _ => ?_
      split
      · exact (h.mono within).exec consequent f
      · cases alternative with
        | none => exact agree_pure fun _ _ => trivial
        | some stmt => exact (h.mono within).exec stmt f
  | whileLoop pos condition body => exact loop (.refl s) f (some condition) none body
  | forLoop pos initializer condition step body =>
      refine (agree_newFrame f).bind fun t within frame _ => ?_
      cases initializer with
      | none => exact loop within frame condition step body
      | some stmt =>
          refine Eval.Agree.bind (P := anything) ?_ fun u later _ _ =>
            loop (within.trans later) frame condition step body
          exact ((h.mono within).exec stmt frame).map fun _ _ _ _ _ _ => trivial
  | block pos body =>
      exact (agree_newFrame f).bind fun t within frame _ =>
        (h.mono within).execAll frame .null trivial body
  | function pos name params body modifiers =>
      refine (agree_newFunction _).bind fun t within id has => ?_
      exact (agree_define f name has).bind fun u later _ _ => agree_pure fun _ last =>
        (has.mono later).mono last
  | classDecl pos name members isStatic =>
      refine (agree_newFrame f).bind fun t within frame _ => ?_
      have fits : ClassObject.Fits t ⟨name, ∅, ∅, isStatic⟩ := by
        refine ⟨fun other id found => ?_, hasAll_empty t⟩
        simp at found
      refine ((h.mono within).declareMembers frame fits members).bind fun u later c fits => ?_
      refine (agree_newClass fits).bind fun w last id has => ?_
      exact (agree_define f name has).bind fun u later _ _ => agree_pure fun _ last =>
        (has.mono later).mono last

end Agree

/-- Evaluation keeps interpreters sound, whatever the fuel. -/
theorem agree_ofFuel (fuel : Nat) : Agree s (ofFuel fuel) (ofFuel fuel) := by
  induction fuel with
  | zero => exact ⟨fun _ _ => agree_throw _, fun _ _ => agree_throw _⟩
  | succ n ih => exact ⟨fun e f => ih.evalStep e f, fun stmt f => ih.execStep n stmt f⟩

/-- A watcher that does nothing in sound interpreters is not noticed. -/
theorem agree_watched {watcher : Expr ⊕ Stmt → Eval Unit}
    (idle : ∀ m : Machine, m.Sound → s.Within m.store → ∀ tree, watcher tree m = .ok () m)
    (fuel : Nat) : Agree s (watched watcher fuel) (ofFuel fuel) := by
  have skip {α : Type} {P : α → Store → Prop} {x y : Eval α} (h : Eval.Agree s P x y)
      (tree : Expr ⊕ Stmt) : Eval.Agree s P (watcher tree >>= fun _ => x) y := by
    intro m sound within
    simp only [Bind.bind, EStateM.bind, idle m sound within tree]
    exact h m sound within
  induction fuel with
  | zero => exact agree_ofFuel 0
  | succ n ih =>
      exact ⟨fun e f => skip (ih.evalStep e f) _, fun stmt f => skip (ih.execStep n stmt f) _⟩

theorem Agree.runAll (h : Agree s ev ev') (program : Program) :
    Eval.Agree s anything (runAll ev program) (runAll ev' program) := by
  induction program generalizing s with
  | nil => exact agree_pure fun _ _ => trivial
  | cons stmt program ih =>
      refine (h.exec stmt Scopes.globals).bind fun t within flow _ => ?_
      cases flow with
      | normal => exact ih (h.mono within)
      | returned => exact agree_pure fun _ _ => trivial

end Evaluator

end Scriptlet
