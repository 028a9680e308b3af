import Scriptlet.Proofs.Parse.Legibility
import Scriptlet.Proofs.Syntax.Unambiguity

/-! # Telling trees apart by their texts

The text of the tree of a script leaves out its places and the modifiers of its functions, and does
not tell an absent clause of a loop from the name `_` or an infinite number from the name `inf`. All
else can be read off it, although strings stand in it as they are. -/

namespace Scriptlet.Script

/-- What the scanner cuts is legible, and the parser keeps it so. -/
theorem legible_program (source : String) : Stmt.LegibleEach (ofSource source).program true :=
  Parse.legibleEach_topLevel _ (Token.legibleEach_scanFrom _ _)

theorem render_eq_iff_shown (source other : String) :
    (ofSource source).program.render = (ofSource other).program.render ↔
      (ofSource source).program.shown = (ofSource other).program.shown := by
  have first := legible_program source
  have second := legible_program other
  constructor
  · exact Program.shown_eq_of_render first second
  · intro same
    rw [← Program.render_shown first, ← Program.render_shown second, same]

end Scriptlet.Script
