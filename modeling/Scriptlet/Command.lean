import Scriptlet.Inspect
import Scriptlet.Session
import Scriptlet.Syntax.Render
import Scriptlet.Text.Utf8

/-! The command line: listing the tokens of a script file, showing its syntax tree, running it. -/

namespace Scriptlet

/-- What to do with a script file. -/
inductive Command where
  | tokenize (json : Bool)
  | parse
  | run
deriving DecidableEq, Repr

/-- What a command leaves behind. -/
structure Report where
  code : UInt8
  stdout : String := ""
  stderr : String := ""
deriving DecidableEq, Repr

namespace Command

/-- A character inside a quoted text of JSON. -/
def escapeJson (c : Char) : List Char :=
  match c with
  | '"' => ['\\', '"']
  | '\\' => ['\\', '\\']
  | '\x08' => ['\\', 'b']
  | '\t' => ['\\', 't']
  | '\n' => ['\\', 'n']
  | '\x0c' => ['\\', 'f']
  | '\r' => ['\\', 'r']
  | c =>
      if c.toNat < 0x20 then
        ['\\', 'u', '0', '0', Nat.digitChar (c.toNat / 16), Nat.digitChar (c.toNat % 16)]
      else [c]

def quoteJson (s : String) : String :=
  "\"" ++ String.ofList (s.toList.flatMap escapeJson) ++ "\""

/-- A token in JSON, as an item of an indented list. -/
def tokenJson (t : Token) : String :=
  "  \x7b\n" ++
  "    \"token_type\": " ++ quoteJson t.kind.name ++ ",\n" ++
  "    \"lexeme\": " ++ quoteJson t.lexeme ++ ",\n" ++
  "    \"line\": " ++ toString t.pos.line ++ ",\n" ++
  "    \"column\": " ++ toString t.pos.column ++ "\n" ++
  "  \x7d"

def tokensJson (ts : List Token) : String :=
  "[\n" ++ ",\n".intercalate (ts.map tokenJson) ++ "\n]"

def unlines (texts : List String) : String :=
  String.join (texts.map (· ++ "\n"))

/-- A line of input, without the line break and the carriage returns at its end. -/
def inputLine (bytes : List UInt8) : InputLine :=
  match Text.decode ⟨bytes.toArray⟩ with
  | .ok text =>
      .text (String.ofList (Text.dropEndWhile (fun c => c = '\n' ∨ c = '\r') text.toList))
  | .error _ => .unreadable

def inputLines (bytes : List UInt8) : List InputLine :=
  (Text.cutAfter (· = 0x0A) bytes).map inputLine

/-- The console of the process: the written text, and the bytes of the input that were not read
yet. -/
structure Stdio where
  output : String := ""
  unread : List UInt8 := []

namespace Stdio

def write (c : Stdio) (text : String) : Stdio :=
  { c with output := c.output ++ text }

def writeLine (c : Stdio) (text : String) : Stdio :=
  { c with output := c.output ++ text ++ "\n" }

/-- Reads up to the next line break. Bytes that are no text are read like the end of the input, but
passed. -/
def readLine (c : Stdio) : Option String × Stdio :=
  match Text.firstPiece (· = 0x0A) c.unread with
  | ([], _) => (none, c)
  | (line, unread) =>
    match inputLine line with
    | .text text => (some text, { c with unread })
    | .unreadable => (none, { c with unread })

/-- The console that scripts run with in its place: all lines are cut beforehand. -/
def buffered (c : Stdio) : Console where
  output := c.output
  pending := inputLines c.unread

end Stdio

/-- The report on a file that could not be read. -/
def unreadable (what cause : String) : Report :=
  { code := 1, stderr := "Error: " ++ what ++ "\n\nCaused by:\n    " ++ cause ++ "\n" }

/-- Runs a script. There is no report if the fuel comes to an end. Rejected statements do not keep
the others from running. -/
def runScript (fuel : Nat) (source : String) (stdio : Stdio) : Option Report :=
  let script := Script.ofSource source
  let stderr := unlines (script.diagnostics.map Diagnostic.text)
  match Session.interpret fuel script.program (.fresh stdio.buffered) with
  | .ok result m =>
      let code := match result with
        | .error _ => 70
        | .ok _ => if script.diagnostics.isEmpty then 0 else 65
      some { code, stdout := m.console.output, stderr }
  | .error _ _ => none

def onSource (fuel : Nat) (source : String) (input : List UInt8) : Command → Option Report
  | .tokenize json =>
      let tokens := Token.scan source
      let texts := if json then [tokensJson tokens] else tokens.map Token.text
      some { code := 0, stdout := unlines texts }
  | .parse =>
      let script := Script.ofSource source
      if script.diagnostics.isEmpty then
        some { code := 0, stdout := unlines [script.program.render] }
      else some { code := 65, stderr := unlines (script.diagnostics.map Diagnostic.text) }
  | .run => runScript fuel source { unread := input }

/-- Does what is asked with a script file of the given name, whose bytes are there or cannot be read
for the reason given. -/
def execute (fuel : Nat) (command : Command) (name : String) (file : Except String ByteArray)
    (input : List UInt8) : Option Report :=
  match file with
  | .error reason => some (unreadable ("Failed to open file " ++ Inspect.quoted name) reason)
  | .ok bytes =>
    match Text.decode bytes with
    | .error fault =>
        some (unreadable ("File " ++ Inspect.quoted name ++ " is not valid UTF-8") fault.text)
    | .ok source => command.onSource fuel source input

/-- The fuel of the command line: more steps than a script can take in practice. -/
def fuel : Nat := Nat.pow 2 48

end Command

end Scriptlet
