import Scriptlet.Command
import Scriptlet.Proofs.Text.Lines

/-! # Script files and sessions

Running a script file does what running its text in a new session does, with the lines of the input
to read. The errors of the session are told by the error output and the exit code. -/

namespace Scriptlet

/-- What was wrong with a rejected statement. -/
def ScriptError.diagnostic? : ScriptError → Option Diagnostic
  | rejected d => some d
  | stopped _ => none

namespace Command

/-- The lines of an input: the pieces between its line breaks, without the carriage returns at their
ends. There is no line after a line break at the end. -/
def linesOf (input : String) : List String :=
  (Text.pieces '\n' input.toList).map fun piece => String.ofList (piece.rdropWhile (· = '\r'))

/-- The exit code for the errors of a script. -/
def exitCode (errors : List ScriptError) : UInt8 :=
  match errors.getLast? with
  | some (.stopped _) => 70
  | some (.rejected _) => 65
  | none => 0

/-- What is left behind by a script that has written to the console and had the errors. -/
def reportOn (errors : List ScriptError) (console : Console) : Report where
  code := exitCode errors
  stdout := console.output
  stderr := unlines ((errors.filterMap ScriptError.diagnostic?).map Diagnostic.text)

/-! ## The input -/

/-- What is taken off the end of a piece without line breaks are carriage returns. -/
theorem dropEndWhile_of_notMem {piece : List Char} (h : '\n' ∉ piece) :
    Text.dropEndWhile (fun c => c = '\n' ∨ c = '\r') piece = piece.rdropWhile (· = '\r') := by
  induction piece using List.reverseRecOn with
  | nil => rfl
  | append_singleton piece c ih =>
      have other : c ≠ '\n' := by
        rintro rfl
        simp at h
      have rest : '\n' ∉ piece := fun mem => h (List.mem_append_left [c] mem)
      rw [Text.dropEndWhile_concat, List.rdropWhile_concat, ih rest]
      simp [other]

theorem dropEndWhile_newline {piece : List Char} (h : '\n' ∉ piece) :
    Text.dropEndWhile (fun c => c = '\n' ∨ c = '\r') (piece ++ ['\n']) =
      piece.rdropWhile (· = '\r') := by
  rw [Text.dropEndWhile_concat, if_pos (by simp), dropEndWhile_of_notMem h]

theorem inputLines_toUTF8 (input : String) :
    inputLines input.toUTF8.toList = (linesOf input).map .text := by
  rw [inputLines, Text.toList_toUTF8, Text.cutAfter_encode, linesOf, List.map_map, List.map_map]
  apply Text.map_cutAfter
  · intro piece clear
    simp only [Function.comp, inputLine, Text.decode_encode, String.toList_ofList,
      dropEndWhile_newline clear]
  · intro piece clear
    simp only [Function.comp, inputLine, Text.decode_encode, String.toList_ofList,
      dropEndWhile_of_notMem clear]

theorem Stdio.buffered_toUTF8 (input : String) :
    ({ unread := input.toUTF8.toList } : Stdio).buffered = .ofLines (linesOf input) := by
  rw [buffered, inputLines_toUTF8]
  rfl

example : inputLines "a\r\n\nb\rc\r\r\n\r".toUTF8.toList =
    [.text "a", .text "", .text "b\rc", .text ""] := by
  rw [inputLines_toUTF8]
  decide

/-! ## The report -/

theorem filterMap_diagnostic? (diagnostics : List Diagnostic) :
    (diagnostics.map ScriptError.rejected).filterMap ScriptError.diagnostic? = diagnostics := by
  simp [Function.comp_def, ScriptError.diagnostic?]

theorem reportOn_rejected (diagnostics : List Diagnostic) (console : Console) :
    reportOn (diagnostics.map .rejected) console =
      { code := if diagnostics.isEmpty then 0 else 65
        stdout := console.output
        stderr := unlines (diagnostics.map Diagnostic.text) } := by
  have code : exitCode (diagnostics.map .rejected) = if diagnostics.isEmpty then 0 else 65 := by
    cases diagnostics using List.reverseRecOn with
    | nil => rfl
    | append_singleton diagnostics d => simp [exitCode]
  rw [reportOn, code, filterMap_diagnostic?]

theorem reportOn_stopped (diagnostics : List Diagnostic) (e : RuntimeError) (console : Console) :
    reportOn (diagnostics.map .rejected ++ [.stopped e]) console =
      { code := 70
        stdout := console.output
        stderr := unlines (diagnostics.map Diagnostic.text) } := by
  have code : exitCode (diagnostics.map .rejected ++ [.stopped e]) = 70 := by simp [exitCode]
  have nothing : [ScriptError.stopped e].filterMap ScriptError.diagnostic? = [] := rfl
  rw [reportOn, code, List.filterMap_append, filterMap_diagnostic?, nothing, List.append_nil]

theorem runScript_eq (fuel : Nat) (source : String) (stdio : Stdio) :
    runScript fuel source stdio =
      match Session.run fuel source (.fresh stdio.buffered) with
      | .ok errors m => some (reportOn errors m.console)
      | .error _ _ => none := by
  simp only [runScript, Session.run, Bind.bind, EStateM.bind]
  cases Session.interpret fuel (Script.ofSource source).program (.fresh stdio.buffered) with
  | error halt m => rfl
  | ok result m =>
      cases result with
      | ok => exact congrArg some (reportOn_rejected _ m.console).symm
      | error e => exact congrArg some (reportOn_stopped _ e m.console).symm

end Command

end Scriptlet
