import Scriptlet.Host.Plugin
import Mathlib.Logic.Relation

/-! # Building adds to the store

Building the values of a plugin makes one new object after the other: stubs, classes, and instances
of classes that have some. All that was there before stays as it was: the frames, and whatever a
reference led to. -/

namespace Scriptlet

/-- Where every item is found again, there are no fewer items. -/
theorem size_le_of_kept {α : Type} {xs ys : Array α}
    (kept : ∀ (i : Nat) (x : α), xs[i]? = some x → ys[i]? = some x) : xs.size ≤ ys.size := by
  refine Nat.le_of_not_lt fun shorter => ?_
  have found := kept ys.size _ (Array.getElem?_eq_getElem shorter)
  exact Nat.lt_irrefl _ (Array.getElem?_eq_some_iff.mp found).1

namespace Store

/-- The second store has the frames of the first, and every reference into the first leads to the
same object in the second. -/
structure Extends (s t : Store) : Prop where
  scopes : t.scopes = s.scopes
  functions : ∀ (id : FunctionId) (f : FunctionObject), s.functions[id]? = some f →
    t.functions[id]? = some f
  classes : ∀ (id : ClassId) (c : ClassObject), s.classes[id]? = some c → t.classes[id]? = some c
  instances : ∀ (id : InstanceId) (i : InstanceObject), s.instances[id]? = some i →
    t.instances[id]? = some i

theorem Extends.refl (s : Store) : s.Extends s :=
  ⟨rfl, fun _ _ h => h, fun _ _ h => h, fun _ _ h => h⟩

theorem Extends.trans {s t u : Store} (h : s.Extends t) (h' : t.Extends u) : s.Extends u where
  scopes := h'.scopes.trans h.scopes
  functions id f hf := h'.functions id f (h.functions id f hf)
  classes id c hc := h'.classes id c (h.classes id c hc)
  instances id i hi := h'.instances id i (h.instances id i hi)

/-- Every reference into the first store leads in the second to the same function, the same class,
or an instance of the same class. -/
structure Within (s t : Store) : Prop where
  functions : ∀ (id : FunctionId) (f : FunctionObject), s.functions[id]? = some f →
    t.functions[id]? = some f
  classes : ∀ (id : ClassId) (c : ClassObject), s.classes[id]? = some c → t.classes[id]? = some c
  instances : ∀ (id : InstanceId) (i : InstanceObject), s.instances[id]? = some i →
    ∃ j, t.instances[id]? = some j ∧ j.classId = i.classId

theorem Within.refl (s : Store) : s.Within s :=
  ⟨fun _ _ h => h, fun _ _ h => h, fun _ i h => ⟨i, h, rfl⟩⟩

theorem Within.trans {s t u : Store} (h : s.Within t) (h' : t.Within u) : s.Within u where
  functions id f hf := h'.functions id f (h.functions id f hf)
  classes id c hc := h'.classes id c (h.classes id c hc)
  instances id i hi := by
    obtain ⟨j, hj, same⟩ := h.instances id i hi
    obtain ⟨k, hk, same'⟩ := h'.instances id j hj
    exact ⟨k, hk, same'.trans same⟩

theorem Extends.within {s t : Store} (h : s.Extends t) : s.Within t :=
  ⟨h.functions, h.classes, fun id i hi => ⟨i, h.instances id i hi, rfl⟩⟩

theorem within_scopes (s : Store) (scopes : Scopes) : s.Within { s with scopes } :=
  ⟨fun _ _ h => h, fun _ _ h => h, fun _ i h => ⟨i, h, rfl⟩⟩

theorem getElem?_setField (s : Store) (id k : InstanceId) (name : String) (v : Value) :
    (s.setField id name v).instances[k]? =
      s.instances[k]?.map fun i =>
        if id = k then { i with fields := i.fields.insert name v } else i := by
  rw [setField, Array.getElem?_modify]
  by_cases same : id = k <;> simp [same]

theorem within_setField (s : Store) (id : InstanceId) (name : String) (v : Value) :
    s.Within (s.setField id name v) := by
  refine ⟨fun _ _ h => h, fun _ _ h => h, fun k i hi => ?_⟩
  rw [getElem?_setField, hi]
  refine ⟨_, rfl, ?_⟩
  split <;> rfl

theorem Within.mem_functions {s t : Store} (h : s.Within t) {f : FunctionObject}
    (mem : f ∈ s.functions) : f ∈ t.functions := by
  obtain ⟨id, found⟩ := Array.mem_iff_getElem?.mp mem
  exact Array.mem_iff_getElem?.mpr ⟨id, h.functions id f found⟩

theorem getElem?_push_of_some {α : Type} {xs : Array α} {i : Nat} {x y : α}
    (h : xs[i]? = some x) : (xs.push y)[i]? = some x := by
  obtain ⟨bound, -⟩ := Array.getElem?_eq_some_iff.mp h
  rw [Array.getElem?_push, if_neg (Nat.ne_of_lt bound), h]

theorem addFunction_extends (s : Store) (f : FunctionObject) : s.Extends (s.addFunction f).2 where
  scopes := rfl
  functions _ _ h := getElem?_push_of_some h
  classes _ _ h := h
  instances _ _ h := h

theorem addClass_extends (s : Store) (c : ClassObject) : s.Extends (s.addClass c).2 where
  scopes := rfl
  functions _ _ h := h
  classes _ _ h := getElem?_push_of_some h
  instances _ _ h := h

theorem addInstance_extends (s : Store) (id : ClassId) : s.Extends (s.addInstance id).2 where
  scopes := rfl
  functions _ _ h := h
  classes _ _ h := h
  instances _ _ h := getElem?_push_of_some h

/-- One new object, as building makes them. -/
inductive Allocation : Store → Store → Prop where
  | stub (s : Store) (signature : Signature) : Allocation s (s.addFunction (.stub signature)).2
  | newClass (s : Store) (c : ClassObject) : Allocation s (s.addClass c).2
  | newInstance (s : Store) (id : ClassId) (h : (s.classObject id).isStatic = false) :
      Allocation s (s.addInstance id).2

/-- Any number of new objects. -/
abbrev Allocations : Store → Store → Prop := Relation.ReflTransGen Allocation

theorem Allocations.extends {s t : Store} (h : Allocations s t) : s.Extends t := by
  induction h with
  | refl => exact .refl s
  | tail _ last ih =>
      cases last with
      | stub signature => exact ih.trans (addFunction_extends _ _)
      | newClass c => exact ih.trans (addClass_extends _ c)
      | newInstance id _ => exact ih.trans (addInstance_extends _ id)

theorem Allocations.within {s t : Store} (h : Allocations s t) : s.Within t :=
  h.extends.within

theorem addStubs_allocates (s : Store) (signatures : List Signature) :
    Allocations s (s.addStubs signatures).2 := by
  unfold addStubs
  generalize (∅ : Table FunctionId) = stubs
  induction signatures generalizing s stubs with
  | nil => exact .refl
  | cons signature signatures ih => exact .head (.stub s signature) (ih _ _)

end Store

open Store

namespace Blueprint

mutual

theorem build_allocates : ∀ (design : Blueprint) (s : Store), Allocations s (design.build s).2
  | .known _, _ => .refl
  | .global _, _ => .refl
  | .stub signature, s => .single (.stub s signature)
  | .newClass _ methods properties _, s =>
      ((s.addStubs_allocates methods).trans (buildProperties_allocates properties ∅ _)).tail
        (.newClass _ _)
  | .newInstance design, s => by
      have built := build_allocates design s
      unfold build
      split
      · rename_i id s' h
        rw [h] at built
        unfold Store.instantiate?
        by_cases isStatic : (s'.classObject id).isStatic
        · rw [if_pos isStatic]
          exact built
        · rw [if_neg isStatic]
          exact built.tail (.newInstance s' id (by simpa using isStatic))
      · rename_i h
        rwa [h] at built

theorem buildProperties_allocates : ∀ (designs : List (String × Blueprint)) (built : Table Value)
    (s : Store), Allocations s (buildProperties designs built s).2
  | [], _, _ => .refl
  | (_, design) :: designs, _, s =>
      (build_allocates design s).trans (buildProperties_allocates designs _ _)

end

theorem build_extends (design : Blueprint) (s : Store) : s.Extends (design.build s).2 :=
  (design.build_allocates s).extends

end Blueprint

theorem Parameter.build_allocates (p : Parameter Blueprint) (s : Store) :
    Allocations s (p.build s).2 := by
  unfold build
  split
  · exact .refl
  · exact Blueprint.build_allocates _ s

theorem Parameter.buildAll_allocates (ps : List (Parameter Blueprint)) (s : Store) :
    Allocations s (buildAll ps s).2 := by
  induction ps generalizing s with
  | nil => exact .refl
  | cons p ps ih => exact (p.build_allocates s).trans (ih _)

theorem FunctionDesign.build_allocates (f : FunctionDesign) (s : Store) :
    Allocations s (f.build s).2 :=
  (f.resource.build_allocates s).trans (Parameter.buildAll_allocates f.parameters _)

theorem FunctionDesign.buildAll_allocates (fs : List FunctionDesign) (s : Store) :
    Allocations s (buildAll fs s).2 := by
  induction fs generalizing s with
  | nil => exact .refl
  | cons f fs ih => exact (f.build_allocates s).trans (ih _)

theorem FunctionDesign.buildAll_extends (fs : List FunctionDesign) (s : Store) :
    s.Extends (buildAll fs s).2 :=
  (buildAll_allocates fs s).extends

end Scriptlet
