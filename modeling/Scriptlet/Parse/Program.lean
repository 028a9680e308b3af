import Scriptlet.Parse.Statement
import Scriptlet.Token.Scan

/-! From a token list or a text to a program. Rejected statements are left out of the program and
reported. -/

namespace Scriptlet

/-- The statements that could be read, and what was wrong with the others. -/
structure Script where
  program : Program
  diagnostics : List Diagnostic

namespace Script

/-- Reads the tokens up to the first end mark; a list without one ends at line 0, column 0. -/
def ofTokens (ts : List Token) : Script :=
  let isEnd (t : Token) : Bool := t.kind = .endOfInput
  let body := ts.takeWhile (!isEnd ·)
  let last := match ts.find? isEnd with
    | some t => t.pos
    | none => ⟨0, 0⟩
  let read := Parse.sequence (fun ts _ => Parse.statement ts) (fun _ => false) body
    (Nat.le_refl _)
  ⟨read.items, read.log.map (Fault.locate last)⟩

def ofSource (source : String) : Script :=
  ofTokens (Token.scan source)

end Script

end Scriptlet
