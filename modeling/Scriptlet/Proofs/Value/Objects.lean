import Scriptlet.Proofs.Value.Extension
import Scriptlet.Proofs.Value.Frames

/-! # Objects and the values that lead to them

The types allow references that lead nowhere, instances of classes that are not there, and instances
without the fields of their class. A sound store has none of these, and every change that scripts
and hosts make to a sound store leaves it sound. -/

namespace Scriptlet

namespace Store

variable {s t : Store}

/-! ## Existing values -/

/-- The value exists: if it is a reference, it leads to an object of the store. -/
def Has (s : Store) : Value → Prop
  | .functionRef id => ∃ f, s.functions[id]? = some f
  | .classRef id => ∃ c, s.classes[id]? = some c
  | .instanceRef id => ∃ i, s.instances[id]? = some i
  | .null | .number _ | .string _ | .bool _ | .host _ => True

theorem Has.mono {v : Value} (h : s.Has v) (within : s.Within t) : t.Has v := by
  cases v with
  | functionRef id =>
      obtain ⟨f, hf⟩ := h
      exact ⟨f, within.functions id f hf⟩
  | classRef id =>
      obtain ⟨c, hc⟩ := h
      exact ⟨c, within.classes id c hc⟩
  | instanceRef id =>
      obtain ⟨i, hi⟩ := h
      obtain ⟨j, hj, -⟩ := within.instances id i hi
      exact ⟨j, hj⟩
  | null | number | string | bool | host => trivial

def HasAll (s : Store) (table : Table Value) : Prop :=
  ∀ (name : String) (v : Value), table[name]? = some v → s.Has v

theorem hasAll_empty (s : Store) : s.HasAll ∅ := by
  intro name v h
  simp at h

theorem HasAll.mono {table : Table Value} (h : s.HasAll table) (within : s.Within t) :
    t.HasAll table :=
  fun name v hv => (h name v hv).mono within

theorem HasAll.insert {table : Table Value} (h : s.HasAll table) (name : String) {v : Value}
    (value : s.Has v) : s.HasAll (table.insert name v) := by
  intro other w hw
  rw [Std.TreeMap.getElem?_insert] at hw
  split at hw
  · exact Option.some.inj hw ▸ value
  · exact h other w hw

end Store

open Store

/-! ## Sound stores -/

/-- The methods and the property defaults of a class exist. -/
structure ClassObject.Fits (s : Store) (c : ClassObject) : Prop where
  methods : ∀ (name : String) (id : FunctionId), c.methods[name]? = some id →
    s.Has (.functionRef id)
  properties : s.HasAll c.properties

/-- The fields of an instance exist, and it is an instance of a class that is not static and has a
field for each property default of that class. -/
structure InstanceObject.Fits (s : Store) (i : InstanceObject) : Prop where
  fields : s.HasAll i.fields
  ofClass : ∃ c, s.classes[i.classId]? = some c ∧ c.isStatic = false ∧
    ∀ name ∈ c.properties, name ∈ i.fields

theorem ClassObject.Fits.mono {s t : Store} {c : ClassObject} (h : c.Fits s)
    (within : s.Within t) : c.Fits t :=
  ⟨fun name id hid => (h.methods name id hid).mono within, h.properties.mono within⟩

theorem InstanceObject.Fits.mono {s t : Store} {i : InstanceObject} (h : i.Fits s)
    (within : s.Within t) : i.Fits t := by
  obtain ⟨c, hc, rest⟩ := h.ofClass
  exact ⟨h.fields.mono within, c, within.classes _ c hc, rest⟩

namespace Store

/-- Everything that frames, classes and instances hold exists, and every instance fits its class. -/
structure Sound (s : Store) : Prop where
  bound : ∀ (f : FrameId) (name : String) (v : Value), s.scopes.local? f name = some v → s.Has v
  classes : ∀ (id : ClassId) (c : ClassObject), s.classes[id]? = some c → c.Fits s
  instances : ∀ (id : InstanceId) (i : InstanceObject), s.instances[id]? = some i → i.Fits s

variable {s t : Store}

/-- A store that keeps what a sound one has is sound if what is new in it fits. -/
theorem Sound.grow (h : s.Sound) (within : s.Within t)
    (bound : ∀ (f : FrameId) (name : String) (v : Value), t.scopes.local? f name = some v →
      s.scopes.local? f name = some v ∨ t.Has v)
    (classes : ∀ (id : ClassId) (c : ClassObject), t.classes[id]? = some c →
      s.classes[id]? = some c ∨ c.Fits t)
    (instances : ∀ (id : InstanceId) (i : InstanceObject), t.instances[id]? = some i →
      s.instances[id]? = some i ∨ i.Fits t) : t.Sound where
  bound f name v hv := by
    rcases bound f name v hv with old | new
    · exact (h.bound f name v old).mono within
    · exact new
  classes id c hc := by
    rcases classes id c hc with old | new
    · exact (h.classes id c old).mono within
    · exact new
  instances id i hi := by
    rcases instances id i hi with old | new
    · exact (h.instances id i old).mono within
    · exact new

/-! ## Frames -/

theorem Sound.withScopes (h : s.Sound) {scopes : Scopes}
    (bound : ∀ (f : FrameId) (name : String) (v : Value), scopes.local? f name = some v →
      s.scopes.local? f name = some v ∨ s.Has v) : Sound { s with scopes } := by
  have within := s.within_scopes scopes
  exact h.grow within (fun f name v hv => (bound f name v hv).imp_right (·.mono within))
    (fun _ _ => .inl) fun _ _ => .inl

theorem Sound.define (h : s.Sound) (f : FrameId) (name : String) {v : Value} (value : s.Has v) :
    Sound { s with scopes := s.scopes.define f name v } := by
  refine h.withScopes fun g other w hw => ?_
  rw [Scopes.local?_define] at hw
  split at hw
  · exact .inr (Option.some.inj hw ▸ value)
  · exact .inl hw

theorem Sound.remove (h : s.Sound) (f : FrameId) (name : String) :
    Sound { s with scopes := s.scopes.remove f name } := by
  refine h.withScopes fun g other w hw => ?_
  rw [Scopes.local?_remove] at hw
  split at hw
  · cases hw
  · exact .inl hw

theorem Sound.push (h : s.Sound) (parent : Option FrameId) :
    Sound { s with scopes := (s.scopes.push parent).2 } :=
  h.withScopes fun g name _ hv => .inl (s.scopes.local?_push parent g name ▸ hv)

theorem Sound.has_of_get? (h : s.Sound) {f : FrameId} {name : String} {v : Value}
    (found : s.scopes.get? f name = some v) : s.Has v := by
  obtain ⟨g, hg⟩ := Scopes.exists_local?_of_get? found
  exact h.bound g name v hg

/-! ## Objects -/

theorem eq_or_of_getElem?_push {α : Type} {xs : Array α} {x y : α} {i : Nat}
    (h : (xs.push x)[i]? = some y) : xs[i]? = some y ∨ y = x := by
  rw [Array.getElem?_push] at h
  split at h
  · exact .inr (Option.some.inj h).symm
  · exact .inl h

theorem Sound.addFunction (h : s.Sound) (f : FunctionObject) : (s.addFunction f).2.Sound :=
  h.grow (s.addFunction_extends f).within (fun _ _ _ => .inl) (fun _ _ => .inl) fun _ _ => .inl

theorem has_addFunction (s : Store) (f : FunctionObject) :
    (s.addFunction f).2.Has (.functionRef (s.addFunction f).1) :=
  ⟨f, Array.getElem?_push_size⟩

theorem Sound.addClass (h : s.Sound) {c : ClassObject} (fits : c.Fits s) :
    (s.addClass c).2.Sound := by
  have within := (s.addClass_extends c).within
  refine h.grow within (fun _ _ _ => .inl) (fun id d hd => ?_) fun _ _ => .inl
  refine (eq_or_of_getElem?_push hd).imp_right fun new => ?_
  rw [new]
  exact fits.mono within

theorem has_addClass (s : Store) (c : ClassObject) :
    (s.addClass c).2.Has (.classRef (s.addClass c).1) :=
  ⟨c, Array.getElem?_push_size⟩

theorem classObject_eq {id : ClassId} {c : ClassObject} (h : s.classes[id]? = some c) :
    s.classObject id = c := by
  rw [classObject, Array.getD_eq_getD_getElem?, h, Option.getD_some]

theorem instanceObject_eq {id : InstanceId} {i : InstanceObject} (h : s.instances[id]? = some i) :
    s.instanceObject id = i := by
  rw [instanceObject, Array.getD_eq_getD_getElem?, h, Option.getD_some]

/-- A new instance is the last one, and its fields are the property defaults of its class. -/
theorem getElem?_addInstance (s : Store) (id : ClassId) :
    (s.addInstance id).2.instances[(s.addInstance id).1]? =
      some ⟨id, (s.classObject id).properties⟩ :=
  Array.getElem?_push_size

/-- An instance of a class that exists and is not static. -/
theorem Sound.addInstance (h : s.Sound) {id : ClassId} {c : ClassObject}
    (found : s.classes[id]? = some c) (notStatic : c.isStatic = false) :
    (s.addInstance id).2.Sound := by
  have within := (s.addInstance_extends id).within
  refine h.grow within (fun _ _ _ => .inl) (fun _ _ => .inl) fun k i hi => ?_
  refine (eq_or_of_getElem?_push hi).imp_right fun new => ?_
  have fields : i.fields = c.properties := by rw [new, classObject_eq found]
  have ofClass : i.classId = id := by rw [new]
  refine ⟨?_, c, ?_, notStatic, ?_⟩
  · rw [fields]
    exact (h.classes id c found).properties.mono within
  · rw [ofClass]
    exact within.classes id c found
  · rw [fields]
    exact fun _ mem => mem

theorem has_addInstance (s : Store) (id : ClassId) :
    (s.addInstance id).2.Has (.instanceRef (s.addInstance id).1) :=
  ⟨_, s.getElem?_addInstance id⟩

theorem Sound.setField (h : s.Sound) (id : InstanceId) (name : String) {v : Value}
    (value : s.Has v) : (s.setField id name v).Sound := by
  have within := s.within_setField id name v
  refine h.grow within (fun _ _ _ => .inl) (fun _ _ => .inl) fun k j hj => ?_
  rw [getElem?_setField, Option.map_eq_some_iff] at hj
  obtain ⟨i, hi, rfl⟩ := hj
  split
  · -- the fields that the class asks for are still there
    have fits := (h.instances k i hi).mono within
    obtain ⟨c, hc, notStatic, all⟩ := fits.ofClass
    refine .inr ⟨fits.fields.insert name (value.mono within), c, hc, notStatic, ?_⟩
    exact fun other mem => Std.TreeMap.mem_insert.mpr (.inr (all other mem))
  · exact .inl hi

/-! ## Members -/

theorem Sound.has_classMember? (h : s.Sound) {id : ClassId} (isThere : s.Has (.classRef id))
    {name : String} {v : Value} (found : s.classMember? id name = some v) : s.Has v := by
  obtain ⟨c, hc⟩ := isThere
  have fits := h.classes id c hc
  rw [classMember?, classObject_eq hc, Option.or_eq_some_iff] at found
  rcases found with method | ⟨-, property⟩
  · obtain ⟨k, hk, rfl⟩ := Option.map_eq_some_iff.mp method
    exact fits.methods name k hk
  · exact fits.properties name v property

theorem Sound.has_instanceMember? (h : s.Sound) {id : InstanceId}
    (isThere : s.Has (.instanceRef id)) {name : String} {v : Value}
    (found : s.instanceMember? id name = some v) : s.Has v := by
  obtain ⟨i, hi⟩ := isThere
  have fits := h.instances id i hi
  obtain ⟨c, hc, -⟩ := fits.ofClass
  rw [instanceMember?, field?, instanceObject_eq hi, classObject_eq hc,
    Option.or_eq_some_iff] at found
  rcases found with field | ⟨-, method⟩
  · exact fits.fields name v field
  · obtain ⟨k, hk, rfl⟩ := Option.map_eq_some_iff.mp method
    exact (h.classes _ c hc).methods name k hk

end Store

/-! ## Blueprints -/

namespace Blueprint

mutual

/-- The values that a blueprint holds before it is built. -/
def values : Blueprint → List Value
  | .known value => [value]
  | .global _ | .stub _ => []
  | .newClass _ _ properties _ => propertyValues properties
  | .newInstance design => design.values

@[inherit_doc values]
def propertyValues : List (String × Blueprint) → List Value
  | [] => []
  | (_, design) :: designs => design.values ++ propertyValues designs

end

/-- The values that a blueprint holds exist. -/
def Fits (s : Store) (design : Blueprint) : Prop :=
  ∀ v ∈ design.values, s.Has v

theorem Fits.mono {s t : Store} {design : Blueprint} (h : design.Fits s) (within : s.Within t) :
    design.Fits t :=
  fun v mem => (h v mem).mono within

end Blueprint

namespace Store

theorem Sound.addStubs {s : Store} (h : s.Sound) (signatures : List Signature) :
    (s.addStubs signatures).2.Sound ∧ ∀ (name : String) (id : FunctionId),
      (s.addStubs signatures).1[name]? = some id →
        (s.addStubs signatures).2.Has (.functionRef id) := by
  unfold Store.addStubs
  -- the stubs that were kept before exist
  have start : ∀ (name : String) (id : FunctionId), (∅ : Table FunctionId)[name]? = some id →
      s.Has (.functionRef id) := by
    intro name id found
    simp at found
  generalize (∅ : Table FunctionId) = stubs at start
  induction signatures generalizing s stubs with
  | nil => exact ⟨h, start⟩
  | cons signature signatures ih =>
      refine ih (h.addFunction _) _ fun name id found => ?_
      rw [Std.TreeMap.getElem?_insert] at found
      split at found
      · exact Option.some.inj found ▸ s.has_addFunction _
      · exact (start name id found).mono (s.addFunction_extends _).within

mutual

/-- Building from values that exist leaves a sound store sound, and the built value exists in it. -/
theorem Sound.build {s : Store} (h : s.Sound) : ∀ design : Blueprint, design.Fits s →
    (design.build s).2.Sound ∧ (design.build s).2.Has (design.build s).1
  | .known value, fits => ⟨h, fits value (List.mem_singleton_self value)⟩
  | .global name, _ => by
      refine ⟨h, ?_⟩
      unfold Blueprint.build
      cases found : s.scopes.local? Scopes.globals name with
      | none => trivial
      | some v => exact h.bound _ name v found
  | .stub signature, _ => ⟨h.addFunction _, s.has_addFunction _⟩
  | .newClass name methods properties isStatic, fits => by
      obtain ⟨sound, stubs⟩ := h.addStubs methods
      have within := (s.addStubs_allocates methods).within
      obtain ⟨sound, built⟩ := sound.buildProperties properties
        (fun v mem => (fits v mem).mono within) (hasAll_empty _)
      refine ⟨sound.addClass ⟨fun name id found => ?_, built⟩, has_addClass _ _⟩
      exact (stubs name id found).mono (Blueprint.buildProperties_allocates properties ∅ _).within
  | .newInstance design, fits => by
      obtain ⟨sound, has⟩ := h.build design fits
      unfold Blueprint.build
      split
      · rename_i id t built
        rw [built] at sound has
        obtain ⟨c, found⟩ := has
        unfold instantiate?
        rw [classObject_eq found]
        cases isStatic : c.isStatic with
        | true => exact ⟨sound, trivial⟩
        | false => exact ⟨sound.addInstance found isStatic, t.has_addInstance id⟩
      · rename_i built
        rw [built] at sound
        exact ⟨sound, trivial⟩

theorem Sound.buildProperties {s : Store} (h : s.Sound) : ∀ (designs : List (String × Blueprint))
    {built : Table Value}, (∀ v ∈ Blueprint.propertyValues designs, s.Has v) → s.HasAll built →
    (Blueprint.buildProperties designs built s).2.Sound ∧
      (Blueprint.buildProperties designs built s).2.HasAll
        (Blueprint.buildProperties designs built s).1
  | [], _, _, all => ⟨h, all⟩
  | (name, design) :: designs, _, fits, all => by
      obtain ⟨here, later⟩ := List.forall_mem_append.mp fits
      have within := (design.build_allocates s).within
      obtain ⟨sound, value⟩ := h.build design here
      exact sound.buildProperties designs (fun v mem => (later v mem).mono within)
        ((all.mono within).insert name value)

end

end Store

end Scriptlet
