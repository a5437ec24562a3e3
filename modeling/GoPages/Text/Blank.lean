import GoPages.Text.Ranges

/-!
# White space

The Unicode property White_Space. It decides what trimming removes and what a route may not
contain.
-/

namespace GoPages.Text

/-- The code points with the property White_Space. -/
def blankRanges : Ranges :=
   [(0x9, 0xd), (0x20, 0x20), (0x85, 0x85), (0xa0, 0xa0), (0x1680, 0x1680), (0x2000, 0x200a),
   (0x2028, 0x2029), (0x202f, 0x202f), (0x205f, 0x205f), (0x3000, 0x3000)]

/-- Is the character white space? -/
def isBlank (c : Char) : Bool := inRanges blankRanges c.toNat

end GoPages.Text
