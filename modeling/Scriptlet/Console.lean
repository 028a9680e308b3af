import Scriptlet.Text.Lines

/-! The console of a script: what it has written, and the input that it has not read yet. -/

namespace Scriptlet

/-- A line of input. One whose bytes are no text is read like the end of the input, but passed. -/
inductive InputLine where
  | text (line : String)
  | unreadable
deriving DecidableEq, Repr

/-- The written text and the lines to be read, without their line breaks. -/
structure Console where
  output : String := ""
  pending : List InputLine := []

namespace Console

def ofLines (lines : List String) : Console :=
  { pending := lines.map .text }

def write (c : Console) (text : String) : Console :=
  { c with output := c.output ++ text }

def writeLine (c : Console) (text : String) : Console :=
  { c with output := c.output ++ text ++ "\n" }

def clear (c : Console) : Console :=
  { c with output := "" }

/-- The next line of input, or what is left of it. -/
def readLine (c : Console) : Option String × Console :=
  match c.pending with
  | [] => (none, c)
  | .text line :: rest => (some line, { c with pending := rest })
  | .unreadable :: rest => (none, { c with pending := rest })

/-- The next character of input; a line break follows each line. -/
def readChar (c : Console) : Option Char × Console :=
  match c.pending with
  | [] => (none, c)
  | .text line :: rest =>
    match line.toList with
    | [] => (some '\n', { c with pending := rest })
    | ch :: chars => (some ch, { c with pending := .text (String.ofList chars) :: rest })
  | .unreadable :: rest => (none, { c with pending := rest })

def lines (c : Console) : List String :=
  (Text.lines c.output.toList).map String.ofList

end Console

end Scriptlet
