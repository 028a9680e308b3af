/-! Bytes as text in UTF-8, and what is reported about bytes that are none. -/

namespace Scriptlet.Text

/-- The first bytes that are no character: where they start, and how many they are. Without a count,
the bytes end within a character. -/
structure Utf8Fault where
  index : Nat
  length : Option Nat
deriving DecidableEq, Repr, Inhabited

def Utf8Fault.text (f : Utf8Fault) : String :=
  match f.length with
  | some n =>
      "invalid utf-8 sequence of " ++ toString n ++ " bytes from index " ++ toString f.index
  | none => "incomplete utf-8 byte sequence from index " ++ toString f.index

/-- The bytes that must follow the first byte of a longer character: their count, and the range of
the next one. -/
def following? (first : UInt8) : Option (Nat × UInt8 × UInt8) :=
  if 0xC2 ≤ first ∧ first ≤ 0xDF then some (1, 0x80, 0xBF)
  else if first = 0xE0 then some (2, 0xA0, 0xBF)
  else if first = 0xED then some (2, 0x80, 0x9F)
  else if 0xE1 ≤ first ∧ first ≤ 0xEF then some (2, 0x80, 0xBF)
  else if first = 0xF0 then some (3, 0x90, 0xBF)
  else if first = 0xF4 then some (3, 0x80, 0x8F)
  else if 0xF1 ≤ first ∧ first ≤ 0xF3 then some (3, 0x80, 0xBF)
  else none

/-- Whether `n` bytes complete a character of which `taken` are read. If not, the count of those
that could belong to one, or none if there are no more bytes. -/
def complete : Nat → UInt8 → UInt8 → Nat → List UInt8 → Except (Option Nat) Unit
  | 0, _, _, _, _ => .ok ()
  | _ + 1, _, _, _, [] => .error none
  | n + 1, low, high, taken, b :: bs =>
      if low ≤ b ∧ b ≤ high then complete n 0x80 0xBF (taken + 1) bs else .error (some taken)

/-- The first fault in bytes of which the first one has the given index. -/
def faultFrom? (index : Nat) : List UInt8 → Option Utf8Fault
  | [] => none
  | b :: bs =>
      if b < 0x80 then faultFrom? (index + 1) bs
      else
        match following? b with
        | none => some ⟨index, some 1⟩
        | some (n, low, high) =>
          match complete n low high 1 bs with
          | .ok _ => faultFrom? (index + n + 1) (bs.drop n)
          | .error length => some ⟨index, length⟩
termination_by bs => bs.length
decreasing_by
  · simp
  · simp only [List.length_cons, List.length_drop]; omega

/-- The text that bytes are in UTF-8. -/
def decode (bytes : ByteArray) : Except Utf8Fault String :=
  match String.fromUTF8? bytes with
  | some text => .ok text
  | none => .error ((faultFrom? 0 bytes.toList).getD default)

end Scriptlet.Text
