import Scriptlet.Proofs.Token.Munch
import Scriptlet.Proofs.Token.Spacing

/-! # A text below another

A line break ends every token but a string and closes every comment. So the tokens of a text with
another one below it are those of the two texts, the second ones as many lines further down as the
first text takes. -/

namespace Scriptlet

/-! ## Lines -/

namespace Position

/-- The place `k` lines further down. -/
def down (k : Nat) (p : Position) : Position :=
  ⟨p.line + k, p.column⟩

theorem next_down (k : Nat) (p : Position) (c : Char) : (p.down k).next c = (p.next c).down k := by
  unfold next
  split
  · simp [down, Nat.add_right_comm]
  · rfl

theorem advance_down (k : Nat) (p : Position) (cs : List Char) :
    (p.down k).advance cs = (p.advance cs).down k := by
  induction cs generalizing p with
  | nil => rfl
  | cons c cs ih =>
      have step := ih (p.next c)
      rw [← next_down] at step
      exact step

/-- Below a text, a line starts. -/
theorem advance_line (cs : List Char) :
    start.advance (cs ++ ['\n']) = start.down (1 + cs.count '\n') := by
  have behind := after_append [] (cs ++ ['\n'])
  rw [List.nil_append, show after [] = start from rfl] at behind
  rw [← behind]
  simp [after, down, start, Nat.add_comm]

end Position

namespace Token

def relocate (f : Position → Position) (t : Token) : Token :=
  { t with pos := f t.pos }

theorem scanFrom_down (k : Nat) (pos : Position) (cs : List Char) :
    scanFrom (pos.down k) cs = (scanFrom pos cs).map (relocate (.down k)) :=
  match cs with
  | [] => by
      rw [scanFrom, scanFrom]
      rfl
  | c :: cs => by
      rw [scanFrom_cons, scanFrom_cons, Position.advance_down, scanFrom_down]
      cases (piece c cs).kind <;> rfl
termination_by cs.length
decreasing_by
  simp only [List.length_cons, List.length_drop]
  omega

/-! ## The first text -/

theorem head?_append_line (cs below : List Char) :
    (cs ++ '\n' :: below).head? = cs.head? ∨ (cs ++ '\n' :: below).head? = some '\n' := by
  cases cs <;> simp

theorem Gap.above {gap rest : List Char} (h : Gap gap rest) (below : List Char) :
    Gap gap (rest ++ '\n' :: below) := by
  induction h with
  | nil => exact .nil
  | blank isBlank _ ih => exact .blank isBlank ih
  | @comment body gap rest inner stop _ ih =>
      refine .comment inner ?_ ih
      rw [← List.append_assoc]
      rcases head?_append_line (gap ++ rest) below with same | line
      · rwa [same]
      · rw [line]
        simp

theorem Munch.above {kind : TokenKind} {lexeme rest : List Char} (h : Munch kind lexeme rest)
    (below : List Char) (closed : rest = [] → kind ≠ .string) :
    Munch kind lexeme (rest ++ '\n' :: below) := by
  refine h.move ((head?_append_line rest below).imp id ?_) fun ends string =>
    absurd string (closed ends)
  intro line c first
  rw [line] at first
  obtain rfl : '\n' = c := by simpa using first
  exact separates_of_blank rfl

theorem scanFrom_ne_nil (pos : Position) (cs : List Char) : scanFrom pos cs ≠ [] := by
  obtain ⟨pieces, spelled, -⟩ := cut_scanFrom pos cs
  intro none_left
  simp [none_left] at spelled

/-- The tokens of two texts with a line break between them, unless the first one ends with a
string, which might not be closed. -/
theorem scanFrom_line (pos : Position) (cs below : List Char)
    (closed : ∀ t ∈ (scanFrom pos cs).dropLast.getLast?, t.kind ≠ .string) :
    scanFrom pos (cs ++ '\n' :: below) =
      (scanFrom pos cs).dropLast ++ scanFrom (pos.advance (cs ++ ['\n'])) below := by
  induction cs using induction_on_pieces generalizing pos with
  | nil =>
      have gap : Gap ['\n'] below := .blank (by decide) .nil
      have passed := scanFrom_gap gap pos
      rw [List.singleton_append] at passed
      rw [List.nil_append, passed, scanFrom]
      rfl
  | gap gap rest isGap ih =>
      rw [scanFrom_gap isGap] at closed ⊢
      rw [List.append_assoc, scanFrom_gap (isGap.above below), ih _ closed, List.append_assoc gap,
        Position.advance_append pos gap]
  | token kind lexeme rest munch ih =>
      have more := scanFrom_ne_nil (pos.advance lexeme) rest
      rw [scanFrom_munch munch, List.dropLast_cons_of_ne_nil more] at closed ⊢
      have last : rest = [] → kind ≠ .string := by
        rintro rfl
        rw [scanFrom] at closed
        exact closed _ rfl
      have closed : ∀ t ∈ (scanFrom (pos.advance lexeme) rest).dropLast.getLast?,
          t.kind ≠ .string := by
        intro t found
        refine closed t ?_
        rw [List.getLast?_cons, Option.mem_def.mp found]
        rfl
      rw [List.append_assoc, scanFrom_munch (munch.above below last), ih _ closed,
        List.append_assoc lexeme, Position.advance_append pos lexeme, List.cons_append]

end Token

end Scriptlet
