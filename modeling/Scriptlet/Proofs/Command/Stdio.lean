import Scriptlet.Proofs.Command.Agreement
import Scriptlet.Proofs.Console.Delivery

/-! # The console of the process

The process takes a line off its input when a script asks for one, and not earlier. A console that
got all lines of the input at the start answers the same way at every time, and has the lines of the
bytes that are left. So running a script with that one makes no difference. -/

namespace Scriptlet.Command

open Console (Answer)

namespace Stdio

/-- What scripts do with their console. -/
inductive Use where
  | readLine
  | write (text : String)
  | writeLine (text : String)

/-- The same use of any console. -/
def Use.ofConsole : Use → Console.Use
  | .readLine => .readLine
  | .write text => .write text
  | .writeLine text => .writeLine text

def Use.run (c : Stdio) : Use → Answer × Stdio
  | .readLine => (.line c.readLine.1, c.readLine.2)
  | .write text => (.done, c.write text)
  | .writeLine text => (.done, c.writeLine text)

def runEach (c : Stdio) : List Use → List Answer × Stdio
  | [] => ([], c)
  | use :: uses =>
      let (answer, c) := use.run c
      let (answers, c) := c.runEach uses
      (answer :: answers, c)

/-- The next line is the first of those that were cut beforehand, and the others are those of the
bytes behind it. -/
theorem buffered_readLine (c : Stdio) :
    c.buffered.readLine = (c.readLine.1, c.readLine.2.buffered) := by
  obtain ⟨output, unread⟩ := c
  cases unread with
  | nil => rfl
  | cons byte bytes =>
      obtain ⟨piece, rest, first, cut⟩ := Text.firstPiece_cons (· = 0x0A) byte bytes
      simp only [buffered, inputLines, cut, List.map_cons, readLine, first, Console.readLine]
      cases inputLine (byte :: piece) <;> rfl

/-- A use gets the same answer from both consoles, and leaves them in step. -/
theorem Use.run_buffered (c : Stdio) (use : Use) :
    use.ofConsole.run c.buffered = ((use.run c).1, (use.run c).2.buffered) := by
  cases use with
  | write | writeLine => rfl
  | readLine =>
      simp only [ofConsole, run, Console.Use.run, buffered_readLine]

/-- However a script uses its console, it gets the same answers from the console of the process as
from one with the lines of the whole input, and the same is written and left to be read. -/
theorem runEach_buffered (c : Stdio) (uses : List Use) :
    c.buffered.runEach (uses.map Use.ofConsole) =
      ((c.runEach uses).1, (c.runEach uses).2.buffered) := by
  induction uses generalizing c with
  | nil => rfl
  | cons use uses ih =>
      simp only [List.map_cons, Console.runEach, runEach, use.run_buffered, ih]

example : (({ unread := [0x61, 0x0D, 0x0A, 0xFF, 0x0A, 0x62] } : Stdio).runEach
    [.readLine, .readLine, .readLine, .readLine]).1 =
    [.line (some "a"), .line none, .line (some "b"), .line none] := by
  decide +kernel

end Stdio

end Scriptlet.Command
