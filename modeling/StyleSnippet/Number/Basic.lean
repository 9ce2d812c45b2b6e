import StyleSnippet.Number.Shortest

/-!
# Numbers of a settings block

A number in a settings block is an integer or a double, and stays what it was written as: `16`
is an integer and `16.0` is not. This module gives numbers their text.
-/

set_option autoImplicit false

namespace StyleSnippet

/-- A number, as it is written. -/
inductive Number
  | int (value : Int)
  | float (value : Binary64)
  deriving DecidableEq, Repr

/-- Doubles are written without an exponent from `0.00001` up to, but not including,
`10000000000000000.0`. -/
def floatLayout : Binary64.Layout := ⟨-5, 16⟩

/-- The text of a double: the shortest that reads back. -/
def Binary64.text : Binary64 → Text
  | nan => ".nan"
  | infinite negative => if negative then "-.inf" else ".inf"
  | finite negative m e =>
    let body : Text :=
      if m = 0 then "0.0" else floatLayout.render (Interval.ofFinite m e).shortest
    if negative then '-' :: body else body

namespace Number

/-- The text of a number. -/
def text : Number → Text
  | int i => if i < 0 then '-' :: Text.ofNat i.natAbs else Text.ofNat i.natAbs
  | float x => x.text

/-- Equality of values, of which an integer and a double never have the same. -/
def same : Number → Number → Bool
  | int i, int j => i == j
  | float x, float y => x.same y
  | _, _ => false

/-- The integers that a settings block can hold: 64 bits, signed or not. -/
def fits (i : Int) : Bool := -9223372036854775808 ≤ i && i < 18446744073709551616

end Number

end StyleSnippet
