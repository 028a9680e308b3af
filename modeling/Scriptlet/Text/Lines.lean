/-! Cutting a text into lines. -/

namespace Scriptlet.Text

/-- Cuts a list after each item that ends a piece. -/
def cutAfter {α : Type} (ends : α → Bool) : List α → List (List α)
  | [] => []
  | a :: as =>
      if ends a then [a] :: cutAfter ends as
      else
        match cutAfter ends as with
        | [] => [[a]]
        | piece :: pieces => (a :: piece) :: pieces

/-- The first piece that is cut off, and what comes behind it. -/
def firstPiece {α : Type} (ends : α → Bool) : List α → List α × List α
  | [] => ([], [])
  | a :: as =>
      if ends a then ([a], as)
      else
        let (piece, rest) := firstPiece ends as
        (a :: piece, rest)

/-- A line without its line break, and without a carriage return in front of that. -/
def stripBreak (line : List Char) : List Char :=
  match line.reverse with
  | '\n' :: '\r' :: rest => rest.reverse
  | '\n' :: rest => rest.reverse
  | _ => line

/-- The lines of a text; the last one need not end in a line break. -/
def lines (cs : List Char) : List (List Char) :=
  (cutAfter (· = '\n') cs).map stripBreak

end Scriptlet.Text
