import Scriptlet.Text.Lowercase

/-! # Lower case is settled after one round

No letter is the small letter of another and the capital of a third, so that the lower case of a
text is its own lower case. -/

namespace Scriptlet.Text

/-! ## The table of capitals -/

namespace CaseRun

/-- The code point is one of the capitals of the run. -/
def HasCapital (run : CaseRun) (n : Nat) : Prop :=
  run.first ≤ n ∧ n ≤ run.last ∧ (n - run.first) % run.step = 0

instance (run : CaseRun) (n : Nat) : Decidable (run.HasCapital n) :=
  inferInstanceAs (Decidable (_ ∧ _ ∧ _))

/-- No small letter of one run is a capital of the other: they lie in different ranges, or every
other letter of one range is a capital and the rest are small. -/
def isApart (run other : CaseRun) : Bool :=
  Nat.blt (run.target + (run.last - run.first)) other.first || Nat.blt other.last run.target ||
    ((Nat.beq run.step 2 || Nat.beq run.first run.last) && Nat.beq other.step 2 &&
      Nat.beq ((run.target + other.first) % 2) 1)

/-- The small letters of the run are characters, and none is the capital that the table leaves
out. -/
def isProper (run : CaseRun) : Bool :=
  (Nat.blt (run.target + (run.last - run.first)) 0xD800 ||
      Nat.blt 0xDFFF run.target && Nat.blt (run.target + (run.last - run.first)) 0x110000) &&
    (Nat.blt (run.target + (run.last - run.first)) 0x130 || Nat.blt 0x130 run.target)

theorem not_hasCapital_of_isApart {run other : CaseRun} {n : Nat} (apart : run.isApart other)
    (h : run.HasCapital n) : ¬ other.HasCapital (run.target + (n - run.first)) := by
  obtain ⟨lower, upper, aligned⟩ := h
  rintro ⟨lower', upper', aligned'⟩
  simp only [isApart, Bool.or_eq_true, Bool.and_eq_true, Nat.blt_eq, Nat.beq_eq] at apart
  obtain (below | above) | ⟨⟨single, even⟩, odd⟩ := apart
  · omega
  · omega
  · rw [even] at aligned'
    rcases single with even | single
    · rw [even] at aligned
      omega
    · omega

end CaseRun

/-- A code point is its own small letter or a capital of the table. -/
theorem lowerCode_cases (runs : List CaseRun) (n : Nat) :
    lowerCode runs n = n ∨ ∃ run ∈ runs, run.HasCapital n ∧
      lowerCode runs n = run.target + (n - run.first) := by
  induction runs with
  | nil => exact .inl rfl
  | cons run runs ih =>
      by_cases before : n < run.first
      · exact .inl (by simp [lowerCode, before])
      · by_cases inside : n ≤ run.last
        · by_cases aligned : (n - run.first) % run.step = 0
          · exact .inr ⟨run, List.mem_cons_self, ⟨Nat.le_of_not_lt before, inside, aligned⟩,
              by simp [lowerCode, before, inside, aligned]⟩
          · exact .inl (by simp [lowerCode, before, inside, aligned])
        · have skip : lowerCode (run :: runs) n = lowerCode runs n := by
            simp [lowerCode, before, inside]
          rw [skip]
          rcases ih with same | ⟨run', mem, found⟩
          · exact .inl same
          · exact .inr ⟨run', List.mem_cons_of_mem _ mem, found⟩

theorem caseRuns_apart : caseRuns.all fun run => caseRuns.all run.isApart := by
  decide +kernel

theorem caseRuns_proper : caseRuns.all CaseRun.isProper := by
  decide +kernel

/-! ## Letters -/

/-- A character that lower case leaves alone, whatever is around it. -/
def IsSettled (c : Char) : Prop :=
  c ≠ 'Σ' ∧ lowerChar c = [c]

instance (c : Char) : Decidable (IsSettled c) :=
  inferInstanceAs (Decidable (_ ∧ _))

theorem isSettled_ofNat {n : Nat} (valid : n.isValidChar) (dot : n ≠ 0x130)
    (small : ∀ run ∈ caseRuns, ¬ run.HasCapital n) : IsSettled (Char.ofNat n) := by
  have code : (Char.ofNat n).toNat = n := by
    rw [Char.ofNat, dif_pos valid]
    rfl
  have same : lowerCode caseRuns n = n := by
    rcases lowerCode_cases caseRuns n with same | ⟨run, mem, capital, -⟩
    · exact same
    · exact absurd capital (small run mem)
  refine ⟨?_, ?_⟩
  · intro sigma
    obtain ⟨run, mem, capital⟩ : ∃ run ∈ caseRuns, run.HasCapital 'Σ'.toNat := by decide +kernel
    exact small run mem (by rwa [← sigma, code] at capital)
  · have notDot : Char.ofNat n ≠ '\u0130' := by
      intro h
      exact dot (by rw [← code, h]; rfl)
    rw [lowerChar, if_neg notDot, code, same]

theorem isSettled_of_mem_lowerChar {c d : Char} (h : c ≠ 'Σ') (hd : d ∈ lowerChar c) :
    IsSettled d := by
  unfold lowerChar at hd
  split at hd
  · have letter : IsSettled 'i' := by decide +kernel
    have dot : IsSettled '\u0307' := by decide +kernel
    simp only [List.mem_cons, List.not_mem_nil, or_false] at hd
    rcases hd with rfl | rfl
    · exact letter
    · exact dot
  · rw [List.mem_singleton] at hd
    rename_i notDot
    rcases lowerCode_cases caseRuns c.toNat with same | ⟨run, mem, capital, small⟩
    · rw [same, Char.ofNat_toNat] at hd
      subst hd
      exact ⟨h, by rw [lowerChar, if_neg notDot, same, Char.ofNat_toNat]⟩
    · rw [hd, small]
      have apart := List.all_eq_true.mp (List.all_eq_true.mp caseRuns_apart run mem)
      have proper := List.all_eq_true.mp caseRuns_proper run mem
      have inside : c.toNat - run.first ≤ run.last - run.first :=
        Nat.sub_le_sub_right capital.2.1 _
      simp only [CaseRun.isProper, Bool.or_eq_true, Bool.and_eq_true, Nat.blt_eq] at proper
      refine isSettled_ofNat ?_ (by omega) fun other mem' =>
        CaseRun.not_hasCapital_of_isApart (apart other mem') capital
      unfold Nat.isValidChar
      omega

/-! ## Texts -/

theorem isSettled_of_mem_lowerAfter {before cs : List Char} {d : Char}
    (hd : d ∈ lowerAfter before cs) : IsSettled d := by
  induction cs generalizing before with
  | nil => cases hd
  | cons c cs ih =>
      simp only [lowerAfter, List.mem_append] at hd
      rcases hd with here | later
      · split at here
        · have final : IsSettled 'ς' := by decide +kernel
          have inner : IsSettled 'σ' := by decide +kernel
          split at here
          · rwa [List.mem_singleton.mp here]
          · rwa [List.mem_singleton.mp here]
        · rename_i sigma
          exact isSettled_of_mem_lowerChar sigma here
      · exact ih later

theorem lowerAfter_of_settled {before cs : List Char} (h : ∀ c ∈ cs, IsSettled c) :
    lowerAfter before cs = cs := by
  induction cs generalizing before with
  | nil => rfl
  | cons c cs ih =>
      rw [List.forall_mem_cons] at h
      obtain ⟨⟨sigma, same⟩, h⟩ := h
      rw [lowerAfter, if_neg sigma, same, ih h, List.singleton_append]

/-- The lower case of a text is its own lower case. -/
theorem lowercase_lowercase (s : String) : lowercase (lowercase s) = lowercase s := by
  have settled := @lowerAfter_of_settled [] (lowerAfter [] s.toList)
    fun _ => isSettled_of_mem_lowerAfter
  rw [lowercase, lowercase, String.toList_ofList, settled]

end Scriptlet.Text
