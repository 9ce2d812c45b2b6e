import StyleSnippet.Text.Basic

/-!
# Characters of YAML

The classes of characters that reading and writing YAML distinguish. They are those of YAML 1.1,
where five characters end a line.
-/

set_option autoImplicit false

namespace StyleSnippet.Yaml

/-- Whether a character ends a line. -/
def isBreak (c : Char) : Bool :=
  c = '\n' || c = '\r' || c = '\x85' || c = '\u2028' || c = '\u2029'

/-- Whether a character is a space or a tab. -/
def isSpacing (c : Char) : Bool := c = ' ' || c = '\t'

/-- Whether a character is a space, a tab or a line end. -/
def isGap (c : Char) : Bool := isSpacing c || isBreak c

/-- Whether a text is at its end or goes on with a space, a tab or a line end. -/
def atGap : Text → Bool
  | [] => true
  | c :: _ => isGap c

/-- Whether a character may be part of an anchor name or a tag handle. -/
def isNameChar (c : Char) : Bool := c.isAlphanum || c = '_' || c = '-'

/-- Whether a document may hold a character at all. -/
def isReadable (c : Char) : Bool :=
  let n := c.toNat
  n = 0x09 || n = 0x0A || n = 0x0D || (0x20 ≤ n && n ≤ 0x7E) || n = 0x85 ||
    (0xA0 ≤ n && n ≤ 0xD7FF) || (0xE000 ≤ n && n ≤ 0xFFFD) || 0x10000 ≤ n

/-- Whether a character is written as it is, and not only as an escape. -/
def isPrintable (c : Char) : Bool :=
  let n := c.toNat
  n = 0x0A || (0x20 ≤ n && n ≤ 0x7E) || (0xA0 ≤ n && n ≤ 0xD7FF) ||
    (0xE000 ≤ n && n ≤ 0xFFFD && n ≠ 0xFEFF) || 0x10000 ≤ n

end StyleSnippet.Yaml
