import Scriptlet.Value.Scopes

/-! # Frames, their parents and their names

What the operations on frames do to the parent and to the names of each frame. -/

namespace Scriptlet.Scopes

def count (s : Scopes) : Nat := s.frames.size

/-- The frame around a frame, if the frame exists: it may lie in no other. -/
def parentOf (s : Scopes) (f : FrameId) : Option (Option FrameId) :=
  s.frames[f]?.map (·.parent)

def Binds (s : Scopes) (f : FrameId) (name : String) : Prop :=
  (s.local? f name).isSome

/-! ## One operation at a time -/

theorem getElem?_update (s : Scopes) (f g : FrameId) (change : Table Value → Table Value) :
    (s.update f change).frames[g]? =
      s.frames[g]?.map fun frame =>
        if f = g then { frame with bindings := change frame.bindings } else frame := by
  rw [update, Array.getElem?_modify]
  by_cases same : f = g
  · simp [same]
  · simp [same]

@[simp] theorem count_update (s : Scopes) (f : FrameId) (change : Table Value → Table Value) :
    (s.update f change).count = s.count :=
  Array.size_modify

@[simp] theorem parentOf_update (s : Scopes) (f g : FrameId)
    (change : Table Value → Table Value) : (s.update f change).parentOf g = s.parentOf g := by
  rw [parentOf, getElem?_update, Option.map_map, parentOf]
  congr 1
  funext frame
  by_cases same : f = g <;> simp [same]

theorem local?_update (s : Scopes) (f g : FrameId) (change : Table Value → Table Value)
    (name : String) :
    (s.update f change).local? g name =
      if f = g then s.frames[g]?.bind fun frame => (change frame.bindings)[name]?
      else s.local? g name := by
  rw [local?, getElem?_update, local?]
  by_cases same : f = g
  · simp only [same, ↓reduceIte, Option.bind_map]
    rfl
  · simp [same]

@[simp] theorem count_define (s : Scopes) (f : FrameId) (name : String) (value : Value) :
    (s.define f name value).count = s.count :=
  s.count_update f _

@[simp] theorem parentOf_define (s : Scopes) (f g : FrameId) (name : String) (value : Value) :
    (s.define f name value).parentOf g = s.parentOf g :=
  s.parentOf_update f g _

theorem local?_define (s : Scopes) (f g : FrameId) (name other : String) (value : Value) :
    (s.define f name value).local? g other =
      if f = g ∧ name = other ∧ g < s.count then some value else s.local? g other := by
  rw [define, local?_update, local?]
  by_cases same : f = g
  · cases here : s.frames[g]? with
    | none =>
        have outside : ¬ g < s.count := by simpa [count] using here
        simp [same, outside]
    | some frame =>
        have inside : g < s.count := (Array.getElem?_eq_some_iff.mp here).1
        simp [same, inside, Std.TreeMap.getElem?_insert]
  · simp [same]

@[simp] theorem count_remove (s : Scopes) (f : FrameId) (name : String) :
    (s.remove f name).count = s.count :=
  s.count_update f _

@[simp] theorem parentOf_remove (s : Scopes) (f g : FrameId) (name : String) :
    (s.remove f name).parentOf g = s.parentOf g :=
  s.parentOf_update f g _

theorem local?_remove (s : Scopes) (f g : FrameId) (name other : String) :
    (s.remove f name).local? g other =
      if f = g ∧ name = other then none else s.local? g other := by
  rw [remove, local?_update, local?]
  by_cases same : f = g
  · cases here : s.frames[g]? with
    | none => simp [same]
    | some frame => simp [same, Std.TreeMap.getElem?_erase]
  · simp [same]

@[simp] theorem count_child (s : Scopes) (parent : FrameId) :
    (s.child parent).2.count = s.count + 1 :=
  Array.size_push _

theorem parentOf_push (s : Scopes) (parent : Option FrameId) (g : FrameId) :
    (s.push parent).2.parentOf g = if g = s.count then some parent else s.parentOf g := by
  rw [push, parentOf, parentOf, Array.getElem?_push]
  by_cases new : g = s.frames.size
  · simp [new, count]
  · simp [new, count]

theorem parentOf_child (s : Scopes) (parent g : FrameId) :
    (s.child parent).2.parentOf g = if g = s.count then some (some parent) else s.parentOf g :=
  s.parentOf_push (some parent) g

@[simp] theorem count_root (s : Scopes) : s.root.2.count = s.count + 1 :=
  Array.size_push _

theorem parentOf_root (s : Scopes) (g : FrameId) :
    s.root.2.parentOf g = if g = s.count then some none else s.parentOf g :=
  s.parentOf_push none g

/-- A new frame binds no name. -/
theorem local?_push (s : Scopes) (parent : Option FrameId) (g : FrameId) (name : String) :
    (s.push parent).2.local? g name = s.local? g name := by
  rw [push, local?, local?, Array.getElem?_push]
  by_cases new : g = s.frames.size
  · simp [new]
  · simp [new]

@[simp] theorem local?_child (s : Scopes) (parent g : FrameId) (name : String) :
    (s.child parent).2.local? g name = s.local? g name :=
  s.local?_push (some parent) g name

theorem binds_of_owner? {s : Scopes} {f owner : FrameId} {name : String}
    (h : s.owner? f name = some owner) : s.Binds owner name := by
  induction f using Nat.strongRecOn with
  | ind f ih =>
      rw [owner?] at h
      cases here : s.local? f name with
      | some value =>
          rw [here] at h
          obtain rfl := Option.some.inj h
          simp [Binds, here]
      | none =>
          rw [here] at h
          dsimp only at h
          split at h
          · rename_i p below _
            exact ih p below h
          · cases h

/-- What a name stands for is bound to it in some frame. -/
theorem exists_local?_of_get? {s : Scopes} {f : FrameId} {name : String} {v : Value}
    (h : s.get? f name = some v) : ∃ g, s.local? g name = some v := by
  induction f using Nat.strongRecOn with
  | ind f ih =>
      rw [get?] at h
      cases here : s.local? f name with
      | some w =>
          rw [here] at h
          exact ⟨f, here.trans h⟩
      | none =>
          rw [here] at h
          dsimp only at h
          split at h
          · rename_i p below _
            exact ih p below h
          · cases h

/-! ## Changes of the global frame -/

/-- The second scopes have the frames of the first with the same parents, and the same variables
outside the global frame. -/
structure VaryInGlobals (s t : Scopes) : Prop where
  count : t.count = s.count
  parentOf : ∀ f, t.parentOf f = s.parentOf f
  local? : ∀ f, f ≠ globals → ∀ name, t.local? f name = s.local? f name

theorem VaryInGlobals.refl (s : Scopes) : s.VaryInGlobals s :=
  ⟨rfl, fun _ => rfl, fun _ _ _ => rfl⟩

theorem VaryInGlobals.trans {s t u : Scopes} (h : s.VaryInGlobals t) (h' : t.VaryInGlobals u) :
    s.VaryInGlobals u where
  count := h'.count.trans h.count
  parentOf f := (h'.parentOf f).trans (h.parentOf f)
  local? f hf name := (h'.local? f hf name).trans (h.local? f hf name)

theorem varyInGlobals_define (s : Scopes) (name : String) (value : Value) :
    s.VaryInGlobals (s.define globals name value) where
  count := s.count_define globals name value
  parentOf f := s.parentOf_define globals f name value
  local? f hf other := by rw [local?_define, if_neg fun h => hf h.1.symm]

theorem varyInGlobals_remove (s : Scopes) (name : String) :
    s.VaryInGlobals (s.remove globals name) where
  count := s.count_remove globals name
  parentOf f := s.parentOf_remove globals f name
  local? f hf other := by rw [local?_remove, if_neg fun h => hf h.1.symm]

/-! ## Roots -/

/-- The global frame lies in no other, and neither do the frames of the host's own. Every other
frame lies in an older one. -/
structure Rooted (own : List FrameId) (s : Scopes) : Prop where
  globals : s.parentOf globals = some none
  roots : ∀ f ∈ own, s.parentOf f = some none
  older : ∀ f, f ≠ Scopes.globals → f ∉ own → f < s.count → ∃ p < f, s.parentOf f = some (some p)

theorem lt_count_of_parentOf {s : Scopes} {f : FrameId} {parent : Option FrameId}
    (h : s.parentOf f = some parent) : f < s.count := by
  rw [parentOf, Option.map_eq_some_iff] at h
  obtain ⟨frame, found, -⟩ := h
  exact (Array.getElem?_eq_some_iff.mp found).1

namespace Rooted

variable {own : List FrameId} {s t : Scopes}

theorem globals_lt (h : s.Rooted own) : Scopes.globals < s.count :=
  lt_count_of_parentOf h.globals

theorem congr (h : s.Rooted own) (count : t.count = s.count)
    (parents : ∀ f, t.parentOf f = s.parentOf f) : t.Rooted own where
  globals := (parents _).trans h.globals
  roots f mem := (parents f).trans (h.roots f mem)
  older f other foreign inside := by
    rw [count] at inside
    rw [parents]
    exact h.older f other foreign inside

theorem varyInGlobals (h : s.Rooted own) (same : s.VaryInGlobals t) : t.Rooted own :=
  h.congr same.count same.parentOf

theorem define (h : s.Rooted own) (f : FrameId) (name : String) (value : Value) :
    (s.define f name value).Rooted own :=
  h.congr (s.count_define f name value) fun g => s.parentOf_define f g name value

theorem remove (h : s.Rooted own) (f : FrameId) (name : String) : (s.remove f name).Rooted own :=
  h.congr (s.count_remove f name) fun g => s.parentOf_remove f g name

theorem child (h : s.Rooted own) {parent : FrameId} (inside : parent < s.count) :
    (s.child parent).2.Rooted own where
  globals := by
    rw [parentOf_child, if_neg (Nat.ne_of_lt h.globals_lt)]
    exact h.globals
  roots f mem := by
    have old := lt_count_of_parentOf (h.roots f mem)
    rw [parentOf_child, if_neg (Nat.ne_of_lt old)]
    exact h.roots f mem
  older f other foreign hf := by
    rw [count_child] at hf
    rw [parentOf_child]
    by_cases new : f = s.count
    · exact ⟨parent, new ▸ inside, if_pos new⟩
    · rw [if_neg new]
      exact h.older f other foreign (Nat.lt_of_le_of_ne (Nat.le_of_lt_succ hf) new)

/-- One more frame that lies in no other. -/
theorem root (h : s.Rooted own) : s.root.2.Rooted (s.count :: own) where
  globals := by
    rw [parentOf_root, if_neg (Nat.ne_of_lt h.globals_lt)]
    exact h.globals
  roots f mem := by
    rw [parentOf_root]
    rcases List.mem_cons.mp mem with rfl | old
    · exact if_pos rfl
    · rw [if_neg (Nat.ne_of_lt (lt_count_of_parentOf (h.roots f old)))]
      exact h.roots f old
  older f other foreign hf := by
    obtain ⟨new, foreign⟩ := not_or.mp (mt List.mem_cons.mpr foreign)
    rw [count_root] at hf
    rw [parentOf_root, if_neg new]
    exact h.older f other foreign (Nat.lt_of_le_of_ne (Nat.le_of_lt_succ hf) new)

end Rooted

end Scriptlet.Scopes
