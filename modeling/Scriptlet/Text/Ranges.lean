/-! Sets of characters, listed as ranges of code points. -/

namespace Scriptlet.Text

/-- Inclusive ranges of code points, disjoint and in increasing order. -/
abbrev Ranges := List (Nat × Nat)

/-- Membership in listed ranges. The search ends at the first range that starts beyond `n`. -/
def Ranges.member : Ranges → Nat → Bool
  | [], _ => false
  | (first, last) :: ranges, n =>
      if n < first then false else if n ≤ last then true else Ranges.member ranges n

end Scriptlet.Text
