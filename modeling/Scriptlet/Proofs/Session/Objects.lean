import Scriptlet.Proofs.Eval.Objects
import Scriptlet.Proofs.Session.Actions

/-! # The object model

Instances belong to classes that can have instances, and have all fields that their class declares.
Classes stay as they were declared, an assignment to a field changes that field only, and every
mention of a class makes a new instance. All of this holds in every session, and all along every
run in it. -/

namespace Scriptlet

open Store Machine

/-! ## What the model says -/

namespace Machine

/-- One field of one instance is set, and nothing else is different. -/
structure SetsField (m n : Machine) (id : InstanceId) (name : String) (v : Value) : Prop where
  field : ∃ i j, m.store.instances[id]? = some i ∧ n.store.instances[id]? = some j ∧
    j.classId = i.classId ∧ j.fields[name]? = some v ∧
    ∀ other, other ≠ name → j.fields[other]? = i.fields[other]?
  instances : ∀ k, k ≠ id → n.store.instances[k]? = m.store.instances[k]?
  classes : n.store.classes = m.store.classes
  functions : n.store.functions = m.store.functions
  scopes : n.store.scopes = m.store.scopes
  rest : n = { m with store := n.store }

end Machine

namespace Session

/-- The host makes no references up: the values that it brings exist, and so do those that its
functions will yield. -/
def Action.Fits (m : Machine) : Action → Prop
  | operation (.load p) | operation (.offer _ p) => p.Fits m.store
  | operation (.register entry) => entry.run.Honest m.store
  | register resource entry =>
      resource.Fits m.store ∧ NativeFunction.HonestMaker m.store fun v => (entry v).run
  | define _ _ design => design.Fits m.store
  | setField object _ design => object.Fits m.store ∧ design.Fits m.store
  | callPlugin _ args | callRegistered _ args => ∀ design ∈ args, design.Fits m.store
  | _ => True

/-- The interpreters of all sessions. -/
inductive Arises : Machine → Prop where
  | fresh (console : Console) : Arises (.fresh console)
  | next {m : Machine} {a : Action} : Arises m → a.Fits m → Arises (a.apply m)

end Session

open Evaluator (ofFuel)

/-- What holds of objects, whatever is evaluated or done next. -/
structure Machine.ObjectModel (m : Machine) : Prop where
  /-- Whatever frames, classes and instances hold exists. Every instance belongs to a class that is
  not static, and has a field for each of its property defaults. -/
  store : m.store.Sound
  /-- What an expression yields exists. -/
  yields : ∀ fuel e f v n, (ofFuel fuel).eval e f m = .ok v n → n.store.Has v
  /-- A property that the class of an instance declares can be read. -/
  reads : ∀ fuel e f id n, (ofFuel fuel).eval e f m = .ok (.instanceRef id) n →
    ∃ i c, n.store.instances[id]? = some i ∧ n.store.classes[i.classId]? = some c ∧
      ∀ name ∈ c.properties, ∃ v, i.fields[name]? = some v ∧
        ∀ pos, (ofFuel (fuel + 1)).eval (.member pos e name) f m = .ok v n
  /-- An assignment to a field evaluates the value and the object, and then sets one field. -/
  assigns : ∀ fuel pos op memberPos object name value f v n,
    (ofFuel fuel).eval (.assign pos op (.member memberPos object name) value) f m = .ok v n →
      ∃ below w valued id ready, fuel = below + 1 ∧
        (ofFuel below).eval value f m = .ok w valued ∧
        (ofFuel below).eval object f valued = .ok (.instanceRef id) ready ∧
        v = op.apply ((ready.store.field? id name).getD (.number 0.0)) w ∧
        ready.SetsField n id name v
  /-- A name of a class that is not static stands for a new instance with the property defaults. -/
  instantiates : ∀ f name id, m.store.scopes.get? f name = some (.classRef id) →
    ∃ c, m.store.classes[id]? = some c ∧ (c.isStatic = false → ∀ fuel pos, ∃ new n,
      (ofFuel (fuel + 1)).eval (.identifier pos name) f m = .ok (.instanceRef new) n ∧
        n.store.instances[new]? = some ⟨id, c.properties⟩ ∧
        ∀ v, m.store.Has v → BinaryOp.equal.apply n.store (.instanceRef new) v = .ok (.bool false))
  /-- Whatever is run, and however it ends, functions and classes stay as they are after each step,
  and instances stay in their class. -/
  runs : ∀ fuel f, (∀ e, m.StepsWithin (((ofFuel fuel).eval e f).after m)) ∧
    ∀ s, m.StepsWithin (((ofFuel fuel).exec s f).after m)
  /-- They also stay so whatever a host does. -/
  keeps : ∀ a : Session.Action, a.Fits m → m.store.Within (a.apply m).store

/-! ## Evaluation in sound interpreters -/

namespace Eval

variable {α β : Type}

theorem bind_eq_ok {x : Eval α} {g : α → Eval β} {b : β} {m n : Machine} :
    (x >>= g) m = .ok b n ↔ ∃ a mid, x m = .ok a mid ∧ g a mid = .ok b n := by
  simp only [Bind.bind, EStateM.bind]
  cases x m <;> simp

end Eval

namespace Evaluator

open Eval

variable {m n : Machine} {fuel : Nat} {f : FrameId}

/-- A field of an instance that an expression yields can be read after it. -/
theorem eval_member_of_field {e : Expr} {id : InstanceId} {i : InstanceObject} {name : String}
    {v : Value} (result : (ofFuel fuel).eval e f m = .ok (.instanceRef id) n)
    (found : n.store.instances[id]? = some i) (field : i.fields[name]? = some v) (pos : Position) :
    (ofFuel (fuel + 1)).eval (.member pos e name) f m = .ok v n := by
  have member : n.store.instanceMember? id name = some v := by
    rw [instanceMember?, field?, instanceObject_eq found, field, Option.some_or]
  refine bind_eq_ok.mpr ⟨_, n, result, ?_⟩
  exact bind_eq_ok.mpr ⟨n, n, rfl, by simp only [member]; rfl⟩

/-- What an assignment to a field does if it succeeds. -/
theorem eval_assign_member {pos memberPos : Position} {op : AssignOp} {object value : Expr}
    {name : String} {v : Value}
    (result : (ofFuel fuel).eval (.assign pos op (.member memberPos object name) value) f m =
      .ok v n) :
    ∃ below w valued id ready, fuel = below + 1 ∧
      (ofFuel below).eval value f m = .ok w valued ∧
      (ofFuel below).eval object f valued = .ok (.instanceRef id) ready ∧
      v = op.apply ((ready.store.field? id name).getD (.number 0.0)) w ∧
      n = { ready with store := ready.store.setField id name v } := by
  cases fuel with
  | zero => cases result
  | succ below =>
      obtain ⟨w, valued, first, result⟩ := bind_eq_ok.mp result
      obtain ⟨target, ready, second, result⟩ := bind_eq_ok.mp result
      cases target with
      | instanceRef id =>
          cases result
          exact ⟨below, w, valued, id, ready, rfl, first, second, rfl, rfl⟩
      | null | number | string | bool | functionRef | classRef | host => cases result

/-- A name of a class that is not static yields a new instance. -/
theorem eval_identifier_of_class {name : String} {id : ClassId} {c : ClassObject}
    (bound : m.store.scopes.get? f name = some (.classRef id))
    (found : m.store.classes[id]? = some c) (notStatic : c.isStatic = false) (pos : Position) :
    (ofFuel (fuel + 1)).eval (.identifier pos name) f m =
      .ok (.instanceRef (m.store.addInstance id).1)
        { m with store := (m.store.addInstance id).2 } := by
  refine bind_eq_ok.mpr ⟨.classRef id, m, ?_, ?_⟩
  · exact bind_eq_ok.mpr ⟨m, m, rfl, by simp only [bound]; rfl⟩
  · refine bind_eq_ok.mpr ⟨m, m, rfl, ?_⟩
    simp only [classObject_eq found, notStatic]
    rfl

end Evaluator

/-- A new instance equals nothing that was there before. -/
theorem Store.equal_addInstance {s : Store} (id : ClassId) {v : Value} (has : s.Has v) :
    BinaryOp.equal.apply (s.addInstance id).2 (.instanceRef (s.addInstance id).1) v =
      .ok (.bool false) := by
  cases v with
  | instanceRef k =>
      obtain ⟨i, hi⟩ := has
      have inside : k < s.instances.size := (Array.getElem?_eq_some_iff.mp hi).1
      have other : ((s.addInstance id).1 == k) = false := beq_false_of_ne (Nat.ne_of_gt inside)
      simp only [BinaryOp.apply, Value.same, other]
  | null | number | string | bool | functionRef | classRef | host => rfl

theorem Machine.setsField {m : Machine} {id : InstanceId} {i : InstanceObject}
    (found : m.store.instances[id]? = some i) (name : String) (v : Value) :
    m.SetsField { m with store := m.store.setField id name v } id name v := by
  refine ⟨⟨i, { i with fields := i.fields.insert name v }, found, ?_, rfl, ?_, ?_⟩, ?_,
    rfl, rfl, rfl, rfl⟩
  · rw [getElem?_setField, found]
    simp
  · simp
  · intro other differs
    rw [Std.TreeMap.getElem?_insert, if_neg]
    simpa using differs.symm
  · intro k differs
    rw [getElem?_setField]
    cases m.store.instances[k]? <;> simp [differs.symm]

/-! ## What a host does -/

theorem Store.Sound.buildAll {s : Store} (h : s.Sound) {designs : List Blueprint}
    (fits : ∀ design ∈ designs, design.Fits s) :
    s.Within (Blueprint.buildAll designs s).2 ∧ (Blueprint.buildAll designs s).2.Sound ∧
      ∀ v ∈ (Blueprint.buildAll designs s).1, (Blueprint.buildAll designs s).2.Has v := by
  induction designs generalizing s with
  | nil => exact ⟨.refl s, h, nofun⟩
  | cons design designs ih =>
      obtain ⟨first, rest⟩ := List.forall_mem_cons.mp fits
      obtain ⟨sound, has⟩ := h.build design first
      have within := (design.build_allocates s).within
      obtain ⟨later, sound, all⟩ := ih sound fun d mem => (rest d mem).mono within
      exact ⟨within.trans later, sound, List.forall_mem_cons.mpr ⟨has.mono later, all⟩⟩

namespace Machine.Sound

variable {m n : Machine} (h : m.Sound)
include h

theorem eval_ok {fuel : Nat} {e : Expr} {f : FrameId} {v : Value}
    (result : (ofFuel fuel).eval e f m = .ok v n) : m.Grows n ∧ n.store.Has v :=
  ((Evaluator.agree_ofFuel fuel).eval e f).of_ok h (.refl _) result

theorem build {design : Blueprint} (fits : design.Fits m.store) :
    m.Grows { m with store := (design.build m.store).2 } ∧
      (design.build m.store).2.Has (design.build m.store).1 := by
  obtain ⟨sound, has⟩ := h.store.build design fits
  exact ⟨h.withStore (design.build_allocates m.store).within sound, has⟩

theorem interpret (fuel : Nat) (program : Program) :
    m.Grows ((Session.interpret fuel program).after m) := by
  have outcome := (Evaluator.agree_ofFuel fuel).runAll program m h (.refl _)
  unfold Eval.after
  rw [Session.interpret_eq, Session.executeAll_eq]
  generalize (ofFuel fuel).runAll program m = r at outcome
  cases outcome with
  | ok grown => exact grown
  | @error halt n grown =>
      cases halt with
      | failed e => exact grown.trans (grown.sound.writeLine _)
      | exhausted => exact grown

theorem operation {o : Session.Operation} (fits : Session.Action.Fits m (.operation o)) :
    m.Grows (o.apply m) := by
  cases o with
  | load p => exact h.load fits
  | loadByName nickname => exact h.loadByName nickname
  | unload nameOrAlias => exact h.unload nameOrAlias
  | offer nickname p =>
      exact ⟨.refl _, h.store, h.registry, h.functions, h.available.offerAll fits [nickname]⟩
  | run fuel source =>
      rw [Session.Operation.apply, Session.after_run]
      exact h.interpret fuel _
  | defineFunction name f => exact h.defineFunction name f
  | register entry => exact ⟨.refl _, h.register fits⟩
  | unregister name => exact ⟨.refl _, h.unregister name⟩

/-- Whatever a host does with values that exist, the interpreter stays sound. -/
theorem action {a : Session.Action} (fits : a.Fits m) : m.Grows (a.apply m) := by
  cases a with
  | operation o => exact h.operation fits
  | interpret fuel program => exact h.interpret fuel program
  | execute fuel stmt f => exact ((Evaluator.agree_ofFuel fuel).exec stmt f).after h (.refl _)
  | evaluate fuel e f => exact ((Evaluator.agree_ofFuel fuel).eval e f).after h (.refl _)
  | root => exact h.withScopes (h.store.push none)
  | define f name design =>
      obtain ⟨built, has⟩ := h.build fits
      exact built.trans (built.sound.withScopes (built.sound.store.define f name has))
  | remove f name => exact h.withScopes (h.store.remove f name)
  | setField object name design =>
      obtain ⟨first, -⟩ := h.build fits.1
      obtain ⟨second, has⟩ := first.sound.build (fits.2.mono first.within)
      have built := first.trans second
      simp only [Session.Action.apply]
      split
      · rename_i id _
        exact built.trans (built.sound.withStore (within_setField _ id name _)
          (built.sound.store.setField id name has))
      · exact built
  | register resource entry =>
      obtain ⟨built, has⟩ := h.build fits.1
      exact ⟨built.within, built.sound.register (fits.2 _ built.within _ has)⟩
  | callPlugin name args =>
      obtain ⟨within, sound, all⟩ := h.store.buildAll fits
      have built := h.withStore within sound
      exact built.trans (built.sound.callPlugin name all).1
  | callRegistered name args =>
      obtain ⟨within, sound, all⟩ := h.store.buildAll fits
      have built := h.withStore within sound
      exact built.trans (built.sound.callRegistered name all).1

/-! ## The model -/

theorem objectModel : m.ObjectModel where
  store := h.store
  yields _ _ _ _ _ result := (h.eval_ok result).2
  reads fuel e f id n result := by
    obtain ⟨grown, i, hi⟩ := h.eval_ok result
    obtain ⟨c, hc, -, all⟩ := (grown.sound.store.instances id i hi).ofClass
    refine ⟨i, c, hi, hc, fun name declared => ?_⟩
    have field := Std.TreeMap.getElem?_eq_some_getElem (all name declared)
    exact ⟨_, field, Evaluator.eval_member_of_field result hi field⟩
  assigns fuel pos op memberPos object name value f v n result := by
    obtain ⟨below, w, valued, id, ready, rfl, first, second, stored, rfl⟩ :=
      Evaluator.eval_assign_member result
    obtain ⟨grown, -⟩ := h.eval_ok first
    obtain ⟨-, i, hi⟩ := grown.sound.eval_ok second
    exact ⟨below, w, valued, id, ready, rfl, first, second, stored, setsField hi name v⟩
  instantiates f name id bound := by
    obtain ⟨c, found⟩ := h.store.has_of_get? bound
    refine ⟨c, found, fun notStatic fuel pos => ?_⟩
    refine ⟨_, _, Evaluator.eval_identifier_of_class bound found notStatic pos, ?_, ?_⟩
    · rw [getElem?_addInstance, classObject_eq found]
    · exact fun v has => equal_addInstance id has
  runs fuel f :=
    ⟨fun e => ((Evaluator.runs_ofFuel fuel).eval e f m).stepsWithin,
      fun s => ((Evaluator.runs_ofFuel fuel).exec s f m).stepsWithin⟩
  keeps a fits := (h.action fits).within

end Machine.Sound

namespace Session

theorem Arises.sound {m : Machine} (h : Arises m) : m.Sound := by
  induction h with
  | fresh console => exact sound_fresh console
  | next _ fits ih => exact (ih.action fits).sound

/-- Whatever is run, it runs as it does without the watcher. -/
structure Unnoticed (m : Machine) (watcher : Expr ⊕ Stmt → Eval Unit) : Prop where
  eval : ∀ fuel e f, (Evaluator.watched watcher fuel).eval e f m = (ofFuel fuel).eval e f m
  exec : ∀ fuel s f, (Evaluator.watched watcher fuel).exec s f m = (ofFuel fuel).exec s f m
  runAll : ∀ fuel program,
    (Evaluator.watched watcher fuel).runAll program m = executeAll fuel program m

/-- The object model holds in every session. It also holds all along every run: a watcher that acts
before each expression and each statement, but does nothing where the model holds and all objects of
the start are there, is never noticed. Functions of the host are assumed to leave the objects alone
that they are handed. -/
theorem object_model_holds {m : Machine} (h : Arises m) :
    m.ObjectModel ∧
      ∀ watcher : Expr ⊕ Stmt → Eval Unit,
        (∀ n, n.ObjectModel → m.store.Within n.store → ∀ tree, watcher tree n = .ok () n) →
          Unnoticed m watcher := by
  have sound := h.sound
  refine ⟨sound.objectModel, fun watcher idle => ?_⟩
  have same := Evaluator.agree_watched fun n sound => idle n sound.objectModel
  refine ⟨fun fuel e f => ?_, fun fuel s f => ?_, fun fuel program => ?_⟩
  · exact ((same fuel).eval e f m sound (.refl _)).eq
  · exact ((same fuel).exec s f m sound (.refl _)).eq
  · rw [executeAll_eq]
    exact ((same fuel).runAll program m sound (.refl _)).eq

/-- A function that ends with a class gives it to a variable, whose mentions are then new instances;
a field of one of them is set. -/
theorem object_model_holds_leaked :
    let source :=
      "function g()\x7bclass C\x7bp=\"a\";\x7d\x7dvar k=g();var x=k;var y=k;x.p=\"b\";"
    let m := Action.apply (.fresh {}) (.operation (.run 9 source))
    (m.store.scopes.get? Scopes.globals "k", m.store.field? 0 "p", m.store.field? 1 "p") =
        (some (.classRef 0), some (.string "b"), some (.string "a")) ∧
      Arises m ∧ m.ObjectModel ∧
      ∀ watcher : Expr ⊕ Stmt → Eval Unit,
        (∀ n, n.ObjectModel → m.store.Within n.store → ∀ tree, watcher tree n = .ok () n) →
          Unnoticed m watcher :=
  ⟨by decide +kernel, .next (.fresh {}) trivial, object_model_holds (.next (.fresh {}) trivial)⟩

end Session

end Scriptlet
