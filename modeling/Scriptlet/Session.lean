import Scriptlet.Eval.Step

/-! Running programs and texts on an interpreter. -/

namespace Scriptlet

/-- What is reported about a script: a rejected statement, or the error that stopped it. -/
inductive ScriptError where
  | rejected (diagnostic : Diagnostic)
  | stopped (error : RuntimeError)
deriving DecidableEq, Repr

def ScriptError.text : ScriptError → String
  | rejected d => d.text
  | stopped e => "Runtime error: " ++ e.text

namespace Session

def execute (fuel : Nat) (s : Stmt) : Eval Flow :=
  (Evaluator.ofFuel fuel).exec s Scopes.globals

/-- Runs statements in the global frame. A return ends the program. -/
def executeAll (fuel : Nat) : Program → Eval Unit
  | [] => return ()
  | s :: ss => do
      match ← execute fuel s with
      | .normal _ => executeAll fuel ss
      | .returned _ => return ()

/-- Runs a program. An error ends it and is written to the console. -/
def interpret (fuel : Nat) (program : Program) : Eval (Except RuntimeError Unit) := do
  let result ← Eval.attempt (executeAll fuel program)
  if let .error e := result then
    Eval.step fun m => ((), m.writeLine (ScriptError.stopped e).text)
  return result

/-- Runs the statements of a text that could be read. What is reported about the others comes before
the error that ended the program. -/
def run (fuel : Nat) (source : String) : Eval (List ScriptError) := do
  let script := Script.ofSource source
  let rejected := script.diagnostics.map .rejected
  match ← interpret fuel script.program with
  | .ok _ => return rejected
  | .error e => return rejected ++ [.stopped e]

end Session

end Scriptlet
