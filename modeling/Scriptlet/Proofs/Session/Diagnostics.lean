import Scriptlet.Proofs.Cursor.Progress
import Scriptlet.Proofs.Session.Places
import Mathlib.Data.Prod.Lex

/-! # Diagnostics come in the order of the source

The tokens of a text stand one behind the other, and the faults of a script blame them from the
front to the back. So the places of the diagnostics never go back, and only the end of the text is
reported twice. -/

namespace Scriptlet

open Parse

/-! ## The order of places -/

namespace Position

/-- Places in the order of their lines, and those of one line in the order of their columns. -/
def rank (p : Position) : Nat ×ₗ Nat :=
  toLex (p.line, p.column)

theorem rank_lt_next (p : Position) (c : Char) : p.rank < (p.next c).rank := by
  unfold next rank
  split <;> simp [Prod.Lex.toLex_lt_toLex]

theorem rank_le_advance (p : Position) (cs : List Char) : p.rank ≤ (p.advance cs).rank := by
  induction cs generalizing p with
  | nil => exact le_rfl
  | cons c cs ih => exact (rank_lt_next p c).le.trans (ih (p.next c))

theorem rank_lt_advance (p : Position) {cs : List Char} (nonempty : cs ≠ []) :
    p.rank < (p.advance cs).rank := by
  cases cs with
  | nil => exact absurd rfl nonempty
  | cons c cs => exact (rank_lt_next p c).trans_le (rank_le_advance (p.next c) cs)

end Position

namespace Token

/-- The place of the first token comes before that of the second. -/
def Precedes (t u : Token) : Prop :=
  t.pos.rank < u.pos.rank

/-- The tokens that cover a text stand one behind the other. -/
theorem Covers.pairwise_precedes {before text : List Char} {ts : List Token}
    (h : Covers before text ts) : ts.Pairwise Precedes := by
  induction h with
  | last => exact List.pairwise_singleton _ _
  | @token before gap rest t ts _ _ visible pos covered ih =>
      refine List.pairwise_cons.mpr ⟨fun u mem => ?_, ih⟩
      obtain ⟨front, -, place⟩ := covered.exists_front u mem
      have lexeme : t.lexeme.toList ++ front ≠ [] := by simp [visible]
      rw [Precedes, place, pos, List.append_assoc, Position.after_append (before ++ gap)]
      exact Position.rank_lt_advance _ lexeme

end Token

/-! ## Blamed tokens -/

namespace Parse.Blamed

variable {us rest : List Token} {log : List Fault}

/-- What is blamed is a token or the end. -/
theorem exists_of_mem (h : Blamed us log rest) :
    ∀ fault ∈ log, fault.pos = none ∨ ∃ t ∈ us, fault.pos = some t.pos := by
  induction h with
  | nil => simp
  | @token us t behind first log rest place blamed _ ih =>
      refine List.forall_mem_cons.mpr ⟨.inr ⟨t, place.subset List.mem_cons_self, blamed⟩, ?_⟩
      intro fault mem
      refine (ih fault mem).imp_right ?_
      rintro ⟨u, inside, blamed⟩
      exact ⟨u, place.subset (List.mem_cons_of_mem _ inside), blamed⟩
  | @atEnd us first log rest blamed _ ih =>
      refine List.forall_mem_cons.mpr ⟨.inl blamed, ?_⟩
      intro fault mem
      refine (ih fault mem).imp_right ?_
      rintro ⟨u, inside, -⟩
      cases inside

/-- Of two faults the first blames an earlier token than the second, or both blame the end. -/
theorem pairwise_locate {last : Position} (h : Blamed us log rest)
    (sorted : us.Pairwise Token.Precedes) (bounded : ∀ t ∈ us, t.pos.rank < last.rank) :
    (log.map (Fault.locate last)).Pairwise fun d e =>
      d.pos.rank < e.pos.rank ∨ d.pos = last ∧ e.pos = last := by
  induction h with
  | nil => exact List.Pairwise.nil
  | @token us t behind first log rest place blamed later ih =>
      obtain ⟨ahead, tail⟩ := List.pairwise_cons.mp (sorted.sublist place.sublist)
      have inside := fun u (mem : u ∈ behind) =>
        bounded u (place.subset (List.mem_cons_of_mem _ mem))
      refine List.pairwise_cons.mpr ⟨List.forall_mem_map.mpr fun fault mem => .inl ?_,
        ih tail inside⟩
      rcases later.exists_of_mem fault mem with none | ⟨u, mem, pos⟩
      · simpa [Fault.locate, blamed, none] using bounded t (place.subset List.mem_cons_self)
      · simpa [Fault.locate, blamed, pos, Token.Precedes] using ahead u mem
  | @atEnd us first log rest blamed later ih =>
      refine List.pairwise_cons.mpr ⟨List.forall_mem_map.mpr fun fault mem => .inr ?_,
        ih .nil (by simp)⟩
      rcases later.exists_of_mem fault mem with none | ⟨u, mem, -⟩
      · simp [Fault.locate, blamed, none]
      · cases mem

end Parse.Blamed

namespace Script

/-- In front of the first end mark the tokens of a text come before it. -/
theorem exists_end_of_scan (source : String) :
    ∃ t ∈ Token.scan source, t.kind = .endOfInput ∧ t.pos = last (Token.scan source) ∧
      ∀ u ∈ body (Token.scan source), u.Precedes t := by
  have covered : Token.Covers [] source.toList (Token.scan source) :=
    Token.scanFrom_covers [] source.toList
  obtain ⟨behind, whole, first⟩ := exists_behind (Token.scan source)
  cases behind with
  | nil =>
      obtain ⟨t, mem, kind⟩ := covered.exists_end
      rw [whole, List.append_nil] at mem
      exact absurd kind (body_kind mem)
  | cons t behind =>
      have mark : t = endOf (Token.scan source) := first
      have inside : t ∈ Token.scan source := by
        rw [whole]
        exact List.mem_append_right _ List.mem_cons_self
      have sorted := covered.pairwise_precedes
      rw [whole] at sorted
      refine ⟨t, inside, mark ▸ endOf_kind _, mark ▸ endOf_pos _, fun u mem => ?_⟩
      exact (List.pairwise_append.mp sorted).2.2 u mem t List.mem_cons_self

/-- The places of the diagnostics of a text never go back, and two of them are the same only at the
end of the text. -/
theorem diagnostics_in_order (source : String) :
    (ofSource source).diagnostics.Pairwise fun d e =>
      d.pos.rank ≤ e.pos.rank ∧
        (d.pos = e.pos → ∃ t ∈ Token.scan source, t.kind = .endOfInput ∧ t.pos = d.pos) := by
  obtain ⟨t, mem, kind, place, ahead⟩ := exists_end_of_scan source
  have blamed := (Tokens.gathers_program [] (List.suffix_refl (body (Token.scan source)))).blamed
  have sorted : (body (Token.scan source)).Pairwise Token.Precedes :=
    (Token.scanFrom_covers [] source.toList).pairwise_precedes.sublist (List.takeWhile_sublist _)
  have located := blamed.pairwise_locate sorted ahead
  rw [place] at located
  refine List.Pairwise.imp ?_ located
  rintro d e (earlier | ⟨first, second⟩)
  · refine ⟨earlier.le, fun same => absurd earlier ?_⟩
    rw [same]
    exact lt_irrefl _
  · refine ⟨(first.trans second.symm ▸ le_rfl), fun _ => ⟨t, mem, kind, place.trans first.symm⟩⟩

-- The end is reported for the member and once more for the class.
example : (ofSource "class A \x7b x").diagnostics =
    [⟨.expected .propertyEnd, ⟨1, 12⟩⟩, ⟨.expected .classEnd, ⟨1, 12⟩⟩] := by
  decide +kernel

end Script

end Scriptlet
