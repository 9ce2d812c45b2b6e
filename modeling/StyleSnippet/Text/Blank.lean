/-!
# Blank characters

Every place that trims text, skips white space in a selector or matches the space around a
header asks the same question of a character: does it have the Unicode property
`White_Space`? This module is that property, as a list of ranges.
-/

set_option autoImplicit false

namespace StyleSnippet.Text

/-- The code points with the Unicode property `White_Space`, as closed ranges. -/
def blankRanges : List (Nat × Nat) :=
  [(0x0009, 0x000D), (0x0020, 0x0020), (0x0085, 0x0085), (0x00A0, 0x00A0), (0x1680, 0x1680),
   (0x2000, 0x200A), (0x2028, 0x2029), (0x202F, 0x202F), (0x205F, 0x205F), (0x3000, 0x3000)]

/-- Whether a character is white space. -/
def isBlank (c : Char) : Bool :=
  blankRanges.any fun r => r.1 ≤ c.toNat && c.toNat ≤ r.2

end StyleSnippet.Text
