import Scriptlet.Console

/-! # Delivery of input

Input can be read by the character and by the line, in any order. What is delivered and what is left
are the lines of the input, each with a line break behind it. A line that was read to its last
character still owes the line break to the next character, and an empty text to the next line. -/

namespace Scriptlet

/-- What a line of input holds for its reader; one that is no text holds nothing. -/
def InputLine.content : InputLine → List Char
  | .text line => line.toList ++ ['\n']
  | .unreadable => []

namespace Console

def remaining (c : Console) : List Char :=
  c.pending.flatMap InputLine.content

inductive Use where
  | readChar
  | readLine
  | write (text : String)
  | writeLine (text : String)
  | clear

inductive Answer where
  | char (read : Option Char)
  | line (read : Option String)
  | done
deriving DecidableEq

/-- The input that an answer delivers. A line comes without its line break. -/
def Answer.delivered : Answer → List Char
  | .char (some ch) => [ch]
  | .line (some text) => text.toList ++ ['\n']
  | .char none | .line none | .done => []

/-- The answer to a use, and the console after it. -/
def Use.run (c : Console) : Use → Answer × Console
  | .readChar => (.char c.readChar.1, c.readChar.2)
  | .readLine => (.line c.readLine.1, c.readLine.2)
  | .write text => (.done, c.write text)
  | .writeLine text => (.done, c.writeLine text)
  | .clear => (.done, c.clear)

/-- The answers to uses one after the other, and the console after them. -/
def runEach (c : Console) : List Use → List Answer × Console
  | [] => ([], c)
  | use :: uses =>
      let (answer, c) := use.run c
      let (answers, c) := c.runEach uses
      (answer :: answers, c)

/-! ## One use -/

/-- What a use delivers is taken off the front of the input. -/
theorem Use.delivered_run (c : Console) (use : Use) :
    (use.run c).1.delivered ++ (use.run c).2.remaining = c.remaining := by
  cases use with
  | write | writeLine | clear => rfl
  | readLine =>
      simp only [Use.run, Console.readLine]
      split <;> rename_i pending <;>
        simp [Answer.delivered, remaining, pending, InputLine.content]
  | readChar =>
      simp only [Use.run, Console.readChar]
      split
      · rename_i pending
        simp [Answer.delivered, remaining, pending]
      · rename_i line rest pending
        -- The line break comes once the line is empty.
        split <;> rename_i chars <;>
          simp [Answer.delivered, remaining, pending, InputLine.content, chars]
      · rename_i pending
        simp [Answer.delivered, remaining, pending, InputLine.content]

def Readable (c : Console) : Prop :=
  .unreadable ∉ c.pending

theorem readable_ofLines (lines : List String) : (ofLines lines).Readable := by
  simp [Readable, ofLines]

theorem Readable.run {c : Console} (h : c.Readable) (use : Use) : (use.run c).2.Readable := by
  unfold Readable at h ⊢
  cases use with
  | write | writeLine | clear => exact h
  | readLine =>
      simp only [Use.run, readLine]
      split <;> rename_i pending <;> simp_all
  | readChar =>
      simp only [Use.run, readChar]
      split
      · exact h
      · split <;> simp_all
      · simp_all

/-- A console with readable input has nothing to read exactly if none is left. -/
theorem Readable.read_eq_none_iff {c : Console} (h : c.Readable) :
    (c.readChar.1 = none ↔ c.remaining = []) ∧ (c.readLine.1 = none ↔ c.remaining = []) := by
  unfold Readable at h
  unfold readChar readLine remaining
  cases pending : c.pending with
  | nil => simp
  | cons first rest =>
      cases first with
      | unreadable => simp [pending] at h
      | text line =>
          cases chars : line.toList <;> simp [InputLine.content, chars]

/-! ## Many uses -/

theorem delivered_runEach (c : Console) (uses : List Use) :
    (c.runEach uses).1.flatMap Answer.delivered ++ (c.runEach uses).2.remaining = c.remaining := by
  induction uses generalizing c with
  | nil => rfl
  | cons use uses ih =>
      simp only [runEach, List.flatMap_cons, List.append_assoc, ih]
      exact use.delivered_run c

theorem Readable.runEach {c : Console} (h : c.Readable) (uses : List Use) :
    (c.runEach uses).2.Readable := by
  induction uses generalizing c with
  | nil => exact h
  | cons use uses ih => exact ih (h.run use)

/-- However a console is used, what it has delivered and what is left are the lines of its input,
each with a line break. At every moment there is nothing to read, by the character or by the line,
exactly if nothing is left, and writing leaves the input alone. -/
theorem input_delivered_once (lines : List String) (uses : List Use) :
    let (answers, c) := (ofLines lines).runEach uses
    answers.flatMap Answer.delivered ++ c.remaining =
        lines.flatMap (fun line => line.toList ++ ['\n']) ∧
      (c.readChar.1 = none ↔ c.remaining = []) ∧
      (c.readLine.1 = none ↔ c.remaining = []) ∧
      ∀ text, (c.write text).pending = c.pending ∧ (c.writeLine text).pending = c.pending ∧
        c.clear.pending = c.pending := by
  have whole : (ofLines lines).remaining = lines.flatMap (fun line => line.toList ++ ['\n']) := by
    rw [remaining, ofLines, List.flatMap_map]
    rfl
  have delivered := delivered_runEach (ofLines lines) uses
  have ends := ((readable_ofLines lines).runEach uses).read_eq_none_iff
  exact ⟨delivered.trans whole, ends.1, ends.2, fun _ => ⟨rfl, rfl, rfl⟩⟩

example : ((ofLines ["hé", ""]).runEach [.readChar, .readChar, .readLine, .readChar, .readLine]).1 =
    [.char (some 'h'), .char (some 'é'), .line (some ""), .char (some '\n'), .line none] := by
  decide

end Console

end Scriptlet
