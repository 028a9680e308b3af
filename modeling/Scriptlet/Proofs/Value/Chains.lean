import Scriptlet.Proofs.Value.Frames

/-! # Chains of frames

From every frame the frames around it lead outwards. Where each of them is older than the one inside
it, the way comes to an end and passes no frame twice; it ends in a root, which is the global frame
or one of the host's own. A name is looked for along this way. -/

namespace Scriptlet.Scopes

/-- The frames on the way from a frame outwards, up to one that lies in no other. -/
inductive Lineage (s : Scopes) : FrameId → List FrameId → Prop where
  | root {f : FrameId} : s.parentOf f = some none → Lineage s f [f]
  | inside {f p : FrameId} {path : List FrameId} : s.parentOf f = some (some p) →
      Lineage s p path → Lineage s f (f :: path)

/-- The way from the frame ends in the global frame or in one of the host's own, and passes no frame
twice. Names are looked up and assigned along it, so that one which is bound at its end is found. -/
def Anchors (own : List FrameId) (s : Scopes) (f : FrameId) : Prop :=
  ∃ path root, s.Lineage f path ∧ path.getLast? = some root ∧ root ∈ globals :: own ∧
    path.Nodup ∧ ∀ name,
      s.get? f name = path.findSome? (s.local? · name) ∧
      s.owner? f name = path.find? (fun g => (s.local? g name).isSome) ∧
      (s.Binds root name → (s.get? f name).isSome ∧ (s.owner? f name).isSome)

/-- A frame that lies in another is younger than that one. -/
def Layered (s : Scopes) : Prop :=
  ∀ f p, s.parentOf f = some (some p) → p < f

variable {own : List FrameId} {s : Scopes} {f p : FrameId} {path : List FrameId}

/-! ## Parents -/

theorem exists_parentOf (inside : f < s.count) : ∃ parent, s.parentOf f = some parent := by
  have found := Array.getElem?_eq_getElem inside
  exact ⟨_, by rw [parentOf, found, Option.map_some]⟩

theorem parent?_of_parentOf (h : s.parentOf f = some none) : s.parent? f = none := by
  rw [parentOf, Option.map_eq_some_iff] at h
  obtain ⟨frame, found, alone⟩ := h
  simp [parent?, found, alone]

/-- All parents count. -/
theorem Layered.parent?_eq (h : s.Layered) (parent : s.parentOf f = some (some p)) :
    s.parent? f = some ⟨p, h f p parent⟩ := by
  have below := h f p parent
  rw [parentOf, Option.map_eq_some_iff] at parent
  obtain ⟨frame, found, inside⟩ := parent
  simp [parent?, found, inside, below]

theorem Layered.exists_lineage (h : s.Layered) (inside : f < s.count) :
    ∃ path, s.Lineage f path := by
  induction f using Nat.strongRecOn with
  | ind f ih =>
      obtain ⟨parent, found⟩ := exists_parentOf inside
      cases parent with
      | none => exact ⟨_, .root found⟩
      | some p =>
          obtain ⟨path, lineage⟩ := ih p (h f p found) (Nat.lt_trans (h f p found) inside)
          exact ⟨_, .inside found lineage⟩

/-! ## Along a lineage -/

namespace Lineage

/-- A lineage ends in a frame that lies in no other. -/
theorem exists_root (lineage : s.Lineage f path) :
    ∃ root, path.getLast? = some root ∧ s.parentOf root = some none := by
  induction lineage with
  | @root f alone => exact ⟨f, rfl, alone⟩
  | inside _ _ ih =>
      obtain ⟨root, last, alone⟩ := ih
      exact ⟨root, by rw [List.getLast?_cons, last, Option.getD_some], alone⟩

theorem le_of_mem (lineage : s.Lineage f path) (h : s.Layered) {g : FrameId} (mem : g ∈ path) :
    g ≤ f := by
  induction lineage with
  | root => exact Nat.le_of_eq (List.mem_singleton.mp mem)
  | inside parent _ ih =>
      rcases List.mem_cons.mp mem with rfl | further
      · exact Nat.le_refl _
      · exact Nat.le_trans (ih further) (Nat.le_of_lt (h _ _ parent))

theorem nodup (lineage : s.Lineage f path) (h : s.Layered) : path.Nodup := by
  induction lineage with
  | root => simp
  | inside parent lineage ih =>
      refine List.nodup_cons.mpr ⟨fun again => ?_, ih⟩
      have outwards := lineage.le_of_mem h again
      exact Nat.not_le_of_lt (h _ _ parent) outwards

theorem get?_eq (lineage : s.Lineage f path) (h : s.Layered) (name : String) :
    s.get? f name = path.findSome? (s.local? · name) := by
  induction lineage with
  | @root f alone =>
      rw [get?, parent?_of_parentOf alone]
      cases here : s.local? f name <;> simp [here]
  | @inside f p path parent _ ih =>
      rw [get?, h.parent?_eq parent]
      cases here : s.local? f name <;> simp [here, ih]

theorem owner?_eq (lineage : s.Lineage f path) (h : s.Layered) (name : String) :
    s.owner? f name = path.find? (fun g => (s.local? g name).isSome) := by
  induction lineage with
  | @root f alone =>
      rw [owner?, parent?_of_parentOf alone]
      cases here : s.local? f name <;> simp [here]
  | @inside f p path parent _ ih =>
      rw [owner?, h.parent?_eq parent]
      cases here : s.local? f name <;> simp [here, ih]

end Lineage

/-! ## Roots -/

namespace Rooted

theorem mem_of_parentOf (h : s.Rooted own) (alone : s.parentOf f = some none) :
    f ∈ Scopes.globals :: own := by
  refine Decidable.byContradiction fun elsewhere => ?_
  obtain ⟨other, foreign⟩ := not_or.mp (mt List.mem_cons.mpr elsewhere)
  obtain ⟨p, -, parent⟩ := h.older f other foreign (lt_count_of_parentOf alone)
  simp [alone] at parent

theorem layered (h : s.Rooted own) : s.Layered := by
  intro f p parent
  have other : f ≠ Scopes.globals := by
    rintro rfl
    simp [h.globals] at parent
  have foreign : f ∉ own := fun mem => by simp [h.roots f mem] at parent
  obtain ⟨q, below, found⟩ := h.older f other foreign (lt_count_of_parentOf parent)
  obtain rfl : p = q := by simpa [parent] using found
  exact below

theorem anchors (h : s.Rooted own) (inside : f < s.count) : s.Anchors own f := by
  obtain ⟨path, lineage⟩ := h.layered.exists_lineage inside
  obtain ⟨root, last, alone⟩ := lineage.exists_root
  have mem : root ∈ path := List.mem_of_getLast? last
  refine ⟨path, root, lineage, last, h.mem_of_parentOf alone, lineage.nodup h.layered, ?_⟩
  intro name
  rw [lineage.get?_eq h.layered, lineage.owner?_eq h.layered]
  refine ⟨rfl, rfl, fun bound => ?_⟩
  rw [List.findSome?_isSome_iff, List.find?_isSome]
  exact ⟨⟨root, mem, bound⟩, root, mem, bound⟩

/-- Where the host has no frames of its own, what is bound in the global frame is found
everywhere. -/
theorem isSome_get? (h : s.Rooted []) {name : String} (bound : s.Binds Scopes.globals name)
    (inside : f < s.count) : (s.get? f name).isSome := by
  obtain ⟨path, root, -, -, known, -, found⟩ := h.anchors inside
  obtain rfl := List.mem_singleton.mp known
  exact ((found name).2.2 bound).1

end Rooted

end Scriptlet.Scopes
