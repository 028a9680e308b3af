import Scriptlet.Command

/-! The program: reads the file and the input, runs the command, and writes what it reports. -/

open Scriptlet

/-- The bytes of a file, or why they cannot be read. -/
def readScript (name : String) : IO (Except String ByteArray) := do
  try
    return .ok (← IO.FS.readBinFile name)
  catch e =>
    match e with
    | .noFileOrDirectory .. => return .error "No such file or directory (os error 2)"
    | e => return .error (toString e)

/-- The command that the arguments ask for, and the file. -/
def commandOf? : List String → Option (Command × String)
  | ["tokenize", name] => some (.tokenize false, name)
  | ["tokenize", name, "--json"] | ["tokenize", "--json", name] => some (.tokenize true, name)
  | ["parse", name] => some (.parse, name)
  | ["run", name] => some (.run, name)
  | _ => none

def main (args : List String) : IO UInt32 := do
  match commandOf? args with
  | none =>
      IO.eprintln "usage: tokenize FILE [--json] | parse FILE | run FILE"
      return 2
  | some (command, name) =>
      let file ← readScript name
      let input ← if command = .run then (← IO.getStdin).readBinToEnd else pure .empty
      match command.execute Command.fuel name file input.toList with
      | some report =>
          IO.print report.stdout
          IO.eprint report.stderr
          return report.code.toUInt32
      | none =>
          IO.eprintln "the script did not come to an end"
          return 1
