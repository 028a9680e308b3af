import Scriptlet.Eval.Basic
import Scriptlet.Proofs.Value.Chains

/-! # Reading and writing in a forest of frames

Frames may lie in frames, and several may lie in no other. A name belongs to the nearest frame on
the way outwards that binds it. Reading gives what it stands for there. Assigning changes it there,
for all frames from which the name belongs to that frame, and for no others. -/

namespace Scriptlet

namespace Scopes

/-- The frames that come from none by making, binding and freeing. -/
inductive Built : Scopes → Prop where
  | empty : Built .empty
  | root {s : Scopes} : Built s → Built s.root.2
  | child {s : Scopes} {parent : FrameId} : Built s → parent < s.count → Built (s.child parent).2
  | define {s : Scopes} (f : FrameId) (name : String) (value : Value) :
      Built s → Built (s.define f name value)
  | assign {s t : Scopes} {f : FrameId} {name : String} {value : Value} :
      Built s → s.assign? f name value = some t → Built t
  | remove {s : Scopes} (f : FrameId) (name : String) : Built s → Built (s.remove f name)

/-- Seen from the frame, the name belongs to the owner: on the way outwards, this is the nearest
frame that binds it. -/
def Owns (s : Scopes) (f : FrameId) (name : String) (owner : FrameId) : Prop :=
  ∃ nearer further, s.Lineage f (nearer ++ owner :: further) ∧
    (∀ g ∈ nearer, ¬ s.Binds g name) ∧ s.Binds owner name

/-- A name of the owner has got a new value. It is read wherever the name belongs to the owner, and
all else is read as before. The frames bind the names that they did, and lie where they lay. -/
structure Reassigned (s : Scopes) (owner : FrameId) (name : String) (value : Value)
    (t : Scopes) : Prop where
  here : ∀ f < s.count, s.Owns f name owner → t.get? f name = some value
  elsewhere : ∀ f < s.count, ∀ other, ¬ (other = name ∧ s.Owns f name owner) →
    t.get? f other = s.get? f other
  names : ∀ f other, t.Binds f other ↔ s.Binds f other
  count : t.count = s.count
  parents : ∀ f, t.parentOf f = s.parentOf f

variable {s t : Scopes} {f owner : FrameId} {name : String} {value : Value}

/-! ## Frames lie in older ones -/

theorem Layered.of_parentOf (h : s.Layered) (same : ∀ f, t.parentOf f = s.parentOf f) :
    t.Layered :=
  fun f p parent => h f p ((same f).symm.trans parent)

theorem Layered.push (h : s.Layered) {parent : Option FrameId}
    (inside : ∀ p ∈ parent, p < s.count) : (s.push parent).2.Layered := by
  intro f p found
  rw [parentOf_push] at found
  split at found
  case isTrue new =>
      subst new
      exact inside p (Option.some.inj found)
  case isFalse => exact h f p found

theorem eq_define_of_assign? (h : s.assign? f name value = some t) :
    ∃ owner, s.owner? f name = some owner ∧ t = s.define owner name value := by
  rw [assign?] at h
  cases found : s.owner? f name with
  | none => simp [found] at h
  | some owner =>
      rw [found] at h
      exact ⟨owner, rfl, (Option.some.inj h).symm⟩

theorem Built.layered (h : s.Built) : s.Layered := by
  induction h with
  | empty => intro f p parent; simp [parentOf, Scopes.empty] at parent
  | root _ ih => exact ih.push (by simp)
  | child _ inside ih => exact ih.push (by simpa using inside)
  | define f name value _ ih => exact ih.of_parentOf fun g => parentOf_define _ f g name value
  | remove f name _ ih => exact ih.of_parentOf fun g => parentOf_remove _ f g name
  | @assign s t f name value _ assigned ih =>
      obtain ⟨owner, -, rfl⟩ := eq_define_of_assign? assigned
      exact ih.of_parentOf fun g => parentOf_define _ owner g name value

/-! ## The owner of a name -/

theorem Lineage.unique {path path' : List FrameId} (h : s.Lineage f path)
    (h' : s.Lineage f path') : path = path' := by
  induction h generalizing path' with
  | root alone =>
      cases h' with
      | root => rfl
      | inside parent => simp [alone] at parent
  | inside parent _ ih =>
      cases h' with
      | root alone => simp [alone] at parent
      | inside parent' rest =>
          obtain rfl : _ = _ := by simpa [parent] using parent'
          rw [ih rest]

theorem Layered.owner?_eq_some_iff (h : s.Layered) (inside : f < s.count) :
    s.owner? f name = some owner ↔ s.Owns f name owner := by
  obtain ⟨path, lineage⟩ := h.exists_lineage inside
  rw [lineage.owner?_eq h, List.find?_eq_some_iff_append]
  constructor
  · rintro ⟨bound, nearer, further, rfl, unbound⟩
    exact ⟨nearer, further, lineage, fun g mem => by simpa [Binds] using unbound g mem, bound⟩
  · rintro ⟨nearer, further, same, unbound, bound⟩
    obtain rfl := lineage.unique same
    exact ⟨bound, nearer, further, rfl, fun g mem => by simpa [Binds] using unbound g mem⟩

theorem Layered.owner?_eq_none_iff (h : s.Layered) (inside : f < s.count) :
    s.owner? f name = none ↔ ¬ ∃ owner, s.Owns f name owner := by
  simp only [← h.owner?_eq_some_iff inside, ← Option.isSome_iff_exists, Bool.not_eq_true,
    Option.isSome_eq_false_iff, Option.isNone_iff_eq_none]

/-- A name stands for what its owner binds it to. -/
theorem get?_eq_bind_owner? (s : Scopes) (f : FrameId) (name : String) :
    s.get? f name = (s.owner? f name).bind (s.local? · name) := by
  induction f using Nat.strongRecOn with
  | ind f ih =>
      rw [get?, owner?]
      cases here : s.local? f name with
      | some held => exact here.symm
      | none =>
          cases s.parent? f with
          | none => rfl
          | some p => exact ih p.1 p.2

theorem contains_eq_isSome_owner? (s : Scopes) (f : FrameId) (name : String) :
    s.contains f name = (s.owner? f name).isSome := by
  induction f using Nat.strongRecOn with
  | ind f ih =>
      rw [contains, owner?]
      cases here : s.local? f name with
      | some held => rfl
      | none =>
          cases s.parent? f with
          | none => rfl
          | some p => exact ih p.1 p.2

/-! ## Assigning -/

theorem lt_count_of_binds (bound : s.Binds f name) : f < s.count := by
  obtain ⟨held, here⟩ := Option.isSome_iff_exists.mp bound
  obtain ⟨frame, found, -⟩ := Option.bind_eq_some_iff.mp here
  exact (Array.getElem?_eq_some_iff.mp found).1

theorem binds_define_iff (bound : s.Binds owner name) (g : FrameId) (other : String) :
    (s.define owner name value).Binds g other ↔ s.Binds g other := by
  rw [Binds, local?_define]
  split
  case isTrue same =>
      obtain ⟨rfl, rfl, -⟩ := same
      exact iff_of_true rfl bound
  case isFalse => rfl

theorem parent?_eq_of_parentOf (h : t.parentOf f = s.parentOf f) : t.parent? f = s.parent? f := by
  have parents : t.frames[f]?.bind (·.parent) = s.frames[f]?.bind (·.parent) := by
    simpa [parentOf, Option.bind_map] using congrArg (·.bind id) h
  simp only [parent?, parents]

/-- The owner of a name depends on where frames lie and which names they bind only. -/
theorem owner?_congr (names : ∀ g, t.Binds g name ↔ s.Binds g name)
    (parents : ∀ g, t.parentOf g = s.parentOf g) (f : FrameId) :
    t.owner? f name = s.owner? f name := by
  induction f using Nat.strongRecOn with
  | ind f ih =>
      have same := Bool.eq_iff_iff.mpr (names f)
      rw [owner?, owner?, parent?_eq_of_parentOf (parents f)]
      cases before : s.local? f name with
      | none =>
          obtain after : t.local? f name = none := by simpa [before] using same
          rw [after]
          cases s.parent? f with
          | none => rfl
          | some p => exact ih p.1 p.2
      | some held =>
          obtain ⟨held', after⟩ : ∃ held', t.local? f name = some held' := by
            simpa [before, Option.isSome_iff_exists] using same
          rw [after]

theorem Layered.reassigned (h : s.Layered) (bound : s.Binds owner name) :
    s.Reassigned owner name value (s.define owner name value) := by
  have parents (g : FrameId) := s.parentOf_define owner g name value
  have owners (other : String) (g : FrameId) :
      (s.define owner name value).owner? g other = s.owner? g other :=
    owner?_congr (fun g => binds_define_iff bound g other) parents g
  refine ⟨fun f known owns => ?_, fun f known other apart => ?_, binds_define_iff bound,
    s.count_define owner name value, parents⟩
  · rw [get?_eq_bind_owner?, owners, (h.owner?_eq_some_iff known).mpr owns]
    have here := s.local?_define owner owner name name value
    exact here.trans (if_pos ⟨rfl, rfl, lt_count_of_binds bound⟩)
  · rw [get?_eq_bind_owner?, owners, get?_eq_bind_owner?]
    cases found : s.owner? f other with
    | none => rfl
    | some g =>
        refine (s.local?_define owner g name other value).trans (if_neg ?_)
        rintro ⟨rfl, rfl, -⟩
        exact apart ⟨rfl, (h.owner?_eq_some_iff known).mp found⟩

end Scopes

/-! ## Variables -/

theorem Eval.lookup_eq (f : FrameId) (name : String) (line : Nat) (m : Machine) :
    lookup f name line m =
      match m.store.scopes.get? f name with
      | some held => .ok held m
      | none => .error (.failed ⟨.undefinedVariable name, line⟩) m := by
  have current : (get : Eval Machine) m = .ok m m := rfl
  simp only [lookup, Bind.bind, EStateM.bind, current]
  cases m.store.scopes.get? f name <;> rfl

theorem Eval.assign_eq (f : FrameId) (name : String) (value : Value) (line : Nat) (m : Machine) :
    assign f name value line m =
      match m.store.scopes.assign? f name value with
      | some scopes => .ok () { m with store := { m.store with scopes } }
      | none => .error (.failed ⟨.undefinedVariable name, line⟩) m := by
  have current : (get : Eval Machine) m = .ok m m := rfl
  simp only [assign, Scopes.assign?, Bind.bind, EStateM.bind, current]
  cases m.store.scopes.owner? f name <;> rfl

/-- In every forest of frames, a name can be looked up and assigned exactly if some frame owns it.
It stands for what the owner binds it to. Assigning changes it for the frames from which it has the
same owner. Where it has no owner, both fail with the name and the line, and nothing is changed. -/
theorem Scopes.Built.variables_follow_owner {m : Machine} {f : FrameId}
    (built : m.store.scopes.Built) (inside : f < m.store.scopes.count) (name : String)
    (value : Value) (line : Nat) :
    let s := m.store.scopes
    let undefined : Halt := .failed ⟨.undefinedVariable name, line⟩
    ((s.get? f name).isSome ↔ ∃ owner, s.Owns f name owner) ∧
      (s.contains f name ↔ ∃ owner, s.Owns f name owner) ∧
      ((s.assign? f name value).isSome ↔ ∃ owner, s.Owns f name owner) ∧
      (∀ owner, s.Owns f name owner →
        (∃ held, s.local? owner name = some held ∧ s.get? f name = some held ∧
          Eval.lookup f name line m = .ok held m) ∧
        ∃ t, s.assign? f name value = some t ∧ s.Reassigned owner name value t ∧
          Eval.assign f name value line m =
            .ok () { m with store := { m.store with scopes := t } }) ∧
      ((¬ ∃ owner, s.Owns f name owner) →
        Eval.lookup f name line m = .error undefined m ∧
          Eval.assign f name value line m = .error undefined m) := by
  intro s undefined
  have layered := built.layered
  have owned : (s.owner? f name).isSome ↔ ∃ owner, s.Owns f name owner :=
    Option.isSome_iff_exists.trans (exists_congr fun _ => layered.owner?_eq_some_iff inside)
  refine ⟨?_, ?_, ?_, fun owner owns => ?_, fun unowned => ?_⟩
  · rw [← owned, get?_eq_bind_owner?]
    cases found : s.owner? f name with
    | none => rfl
    | some owner => exact iff_of_true (binds_of_owner? found) rfl
  · rw [← owned, contains_eq_isSome_owner?]
  · rw [← owned, assign?]
    cases s.owner? f name <;> rfl
  · have found := (layered.owner?_eq_some_iff inside).mpr owns
    have bound : s.Binds owner name := binds_of_owner? found
    obtain ⟨held, here⟩ := Option.isSome_iff_exists.mp bound
    have read : s.get? f name = some held := by
      rw [get?_eq_bind_owner?, found]
      exact here
    have written : s.assign? f name value = some (s.define owner name value) := by
      rw [assign?, found]
    refine ⟨⟨held, here, read, ?_⟩, _, written, layered.reassigned bound, ?_⟩
    · rw [Eval.lookup_eq, read]
    · rw [Eval.assign_eq, written]
  · have none_found := (layered.owner?_eq_none_iff inside).mpr unowned
    have unread : s.get? f name = none := by
      rw [get?_eq_bind_owner?, none_found]
      rfl
    have unwritten : s.assign? f name value = none := by
      rw [assign?, none_found]
    refine ⟨?_, ?_⟩
    · rw [Eval.lookup_eq, unread]
    · rw [Eval.assign_eq, unwritten]

/-- A frame in the middle has lost the name again, and a frame beside it has the same owner. Another
tree of frames has a name of its own. -/
theorem Scopes.Built.variables_follow_owner_freed :
    let roots := (Scopes.empty.root.2.child 0).2.root.2
    let forest := ((roots.child 1).2.child 0).2
    let bound := ((forest.define 0 "x" .null).define 1 "x" .null).define 2 "x" .null
    let m := { Machine.fresh {} with
      store := { Store.empty with scopes := bound.remove 1 "x" } }
    let s := m.store.scopes
    s.Built ∧ 3 < s.count ∧ s.Owns 3 "x" 0 ∧ s.Owns 4 "x" 0 ∧ s.Owns 2 "x" 2 ∧
      ∃ t, s.assign? 3 "x" (.string "a") = some t ∧ s.Reassigned 0 "x" (.string "a") t := by
  intro roots forest bound m s
  have built : s.Built := by
    refine .remove 1 "x" (.define _ _ _ (.define _ _ _ (.define _ _ _ ?_)))
    refine .child (.child (.root (.child (.root .empty) ?_)) ?_) ?_
    all_goals decide
  have owns : ∀ f owner, f < 5 → s.owner? f "x" = some owner → s.Owns f "x" owner :=
    fun _ _ inside => (built.layered.owner?_eq_some_iff inside).mp
  have nearest : s.Owns 3 "x" 0 := owns 3 0 (by decide) (by decide +kernel)
  have law := built.variables_follow_owner (m := m) (f := 3) (by decide) "x" (.string "a") 1
  obtain ⟨-, t, written, reassigned, -⟩ := law.2.2.2.1 0 nearest
  exact ⟨built, by decide, nearest, owns 4 0 (by decide) (by decide +kernel),
    owns 2 2 (by decide) (by decide +kernel), t, written, reassigned⟩

end Scriptlet
