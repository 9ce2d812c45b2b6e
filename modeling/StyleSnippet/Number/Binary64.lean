import StyleSnippet.Text.Basic

/-!
# Double-precision numbers

A `Binary64` is a number as a double-precision format holds it: an integer significand times a
power of two, or an infinity, or the one value that is not a number. Decimals are read by exact
arithmetic on natural numbers, so that the nearest double is found for every decimal, with a
tie going to the even significand.
-/

set_option autoImplicit false

namespace StyleSnippet

/-- A decimal number, `± digits · 10 ^ exponent`. -/
structure Decimal where
  negative : Bool
  digits : Nat
  exponent : Int
  deriving DecidableEq, Repr

namespace Decimal

/-- The value of a run of decimal digits, continued from `acc`. -/
def digitsValue (acc : Nat) (ds : Text) : Nat :=
  ds.foldl (fun n c => 10 * n + (c.toNat - '0'.toNat)) acc

/-- A sign in front of a text: whether it is a minus, and the text after it. -/
def cutSign : Text → Bool × Text
  | '-' :: r => (true, r)
  | '+' :: r => (false, r)
  | t => (false, t)

/-- The exponent that ends a decimal: nothing, or `e` and an integer. -/
def exponent? : Text → Option Int
  | [] => some 0
  | c :: r =>
    if c = 'e' ∨ c = 'E' then
      let (negative, ds) := cutSign r
      if ds ≠ [] ∧ ds.all Char.isDigit then
        some (if negative then -(digitsValue 0 ds : Int) else digitsValue 0 ds)
      else none
    else none

/-- Reads a decimal: a sign, digits with at most one point and at least one digit, an
exponent. -/
def ofText? (t : Text) : Option Decimal :=
  let (negative, body) := cutSign t
  let whole := body.takeWhile Char.isDigit
  let rest := body.dropWhile Char.isDigit
  let (fraction, tail) := match rest with
    | '.' :: r => (r.takeWhile Char.isDigit, r.dropWhile Char.isDigit)
    | r => ([], r)
  if whole.isEmpty && fraction.isEmpty then none
  else (exponent? tail).map fun e =>
    { negative := negative
      digits := digitsValue (digitsValue 0 whole) fraction
      exponent := e - fraction.length }

end Decimal

/-- A double-precision number. A finite one is `± significand · 2 ^ exponent`, where the
significand has 53 bits, or fewer at the least exponent, which is -1074. -/
inductive Binary64
  | nan
  | infinite (negative : Bool)
  | finite (negative : Bool) (significand : Nat) (exponent : Int)
  deriving DecidableEq, Repr

namespace Binary64

/-- The least exponent of a finite number. -/
def minExponent : Int := -1074

/-- The greatest exponent of a finite number. -/
def maxExponent : Int := 971

/-- The least significand that uses all 53 bits. -/
def fullSignificand : Nat := 4503599627370496

/-- The integer nearest to `n / d`, the even one of two that are equally near. -/
def roundHalfEven (n d : Nat) : Nat :=
  let q := n / d
  let r := n % d
  if 2 * r < d then q
  else if d < 2 * r then q + 1
  else if q % 2 = 0 then q else q + 1

/-- `n / d / base ^ e`, as a pair of natural numbers. -/
def scaleDown (base n d : Nat) (e : Int) : Nat × Nat :=
  if 0 ≤ e then (n, d * Nat.pow base e.toNat) else (n * Nat.pow base (-e).toNat, d)

/-- The number nearest to `± n / d`. -/
def ofRatio (negative : Bool) (n d : Nat) : Binary64 :=
  if n = 0 then finite negative 0 minExponent
  else
    -- The exponent by the lengths of the two numbers is right, or too great by one.
    let e₀ : Int := (n.log2 : Int) - d.log2 - 52
    let (n₀, d₀) := scaleDown 2 n d e₀
    let e := max minExponent (if n₀ < fullSignificand * d₀ then e₀ - 1 else e₀)
    let (n₁, d₁) := scaleDown 2 n d e
    let m := roundHalfEven n₁ d₁
    -- Rounding up can bring the significand to 54 bits.
    let (m, e) := if m = 2 * fullSignificand then (fullSignificand, e + 1) else (m, e)
    if maxExponent < e then infinite negative else finite negative m e

/-- The number nearest to a decimal. Decimals far outside the range are decided by their
number of digits. -/
def ofDecimal (x : Decimal) : Binary64 :=
  let size : Int := (Text.ofNat x.digits).length + x.exponent
  if x.digits = 0 ∨ size < -330 then finite x.negative 0 minExponent
  else if 310 < size then infinite x.negative
  else
    let (n, d) := scaleDown 10 x.digits 1 (-x.exponent)
    ofRatio x.negative n d

/-- Whether a number is neither infinite nor the value that is not a number. -/
def isFinite : Binary64 → Bool
  | finite .. => true
  | _ => false

/-- Equality of values: the two zeros are equal, and the value that is not a number equals
itself. -/
def same : Binary64 → Binary64 → Bool
  | nan, nan => true
  | infinite a, infinite b => a == b
  | finite s m e, finite s' m' e' => m == m' && e == e' && (s == s' || m == 0)
  | _, _ => false

end Binary64

end StyleSnippet
