/-!
# Character classes as tables of ranges

A class of characters is a list of code point ranges in increasing order, both ends included.
`inRanges` looks a code point up and stops at the first range beyond it. The tables of this library
follow version 17.0 of the Unicode standard.
-/

namespace GoPages.Text

/-- Ranges of code points, both ends included, in increasing order. -/
abbrev Ranges := List (Nat × Nat)

/-- Is the code point `n` in one of the ranges? The search ends at the first range above `n`. -/
def inRanges : Ranges → Nat → Bool
  | [], _ => false
  | (lo, hi) :: rest, n => if n < lo then false else n ≤ hi || inRanges rest n

@[simp] theorem inRanges_nil (n : Nat) : inRanges [] n = false := rfl

end GoPages.Text
