import StyleSnippet.Number.Binary64

/-!
# The shortest decimal of a double

The decimals that read back as a given double form an interval around it. The shortest decimal
is looked for on coarser to finer decimal grids: with 1, 2, … 17 digits, the two neighbours of
the double on the grid are tested against the interval, and the first grid with a hit wins. Of
two hits the nearer one is taken, and the one with an even last digit when both are equally
near. All of it is exact arithmetic on natural numbers.
-/

set_option autoImplicit false

namespace StyleSnippet.Binary64

/-- A positive decimal `0.d₁d₂… · 10 ^ point`, by its digits. -/
structure Digits where
  digits : Text
  point : Int
  deriving DecidableEq, Repr

/-- A positive double and the interval that reads back as it, over one denominator. -/
structure Interval where
  low : Nat
  value : Nat
  high : Nat
  denominator : Nat
  /-- Whether the two ends of the interval read back as the double. -/
  closed : Bool
  deriving DecidableEq, Repr

namespace Interval

/-- The interval of `m · 2 ^ e`. Below a power of two the next double is half as far away. -/
def ofFinite (m : Nat) (e : Int) : Interval :=
  let (scale, denominator) := scaleDown 2 1 1 (2 - e)
  let below := if m = fullSignificand ∧ minExponent < e then 1 else 2
  { low := (4 * m - below) * scale
    value := 4 * m * scale
    high := (4 * m + 2) * scale
    denominator := denominator
    closed := m % 2 = 0 }

/-- Whether `n / d` lies in the interval. -/
def holds (i : Interval) (n d : Nat) : Bool :=
  if i.closed then
    i.low * d ≤ n * i.denominator && n * i.denominator ≤ i.high * d
  else
    i.low * d < n * i.denominator && n * i.denominator < i.high * d

/-- The place of the decimal point: the double is at least `10 ^ (point - 1)` and below
`10 ^ point`. -/
def point (i : Interval) : Int :=
  if i.denominator ≤ i.value then (Text.ofNat (i.value / i.denominator)).length
  else 1 - (Text.ofNat ((i.denominator - 1) / i.value)).length

/-- The decimal with the given number of digits that reads back and is nearest, if any. -/
def onGrid? (i : Interval) (count : Nat) : Option Nat :=
  let (n, d) := scaleDown 10 i.value i.denominator (i.point - count)
  let under := n / d
  let reads (k : Nat) : Bool :=
    let (kn, kd) := scaleDown 10 k 1 (count - i.point)
    i.holds kn kd
  match reads under, reads (under + 1) with
  | true, true => some (roundHalfEven n d)
  | true, false => some under
  | false, true => some (under + 1)
  | false, false => none

/-- The shortest decimal that reads back as the double. Seventeen digits always suffice. -/
def shortest (i : Interval) : Digits :=
  let found := (List.range 18).findSome? fun count =>
    if count = 0 then none else (i.onGrid? count).map fun k => (count, k)
  match found with
  | none => ⟨['0'], 1⟩
  | some (count, k) =>
    let ds := Text.ofNat k
    -- The upper neighbour of the double can have one digit more than the grid.
    { digits := (ds.reverse.dropWhile (· = '0')).reverse
      point := i.point + ((ds.length : Int) - count) }

end Interval

/-- Where a double is written without an exponent, by the place of its decimal point. -/
structure Layout where
  minPoint : Int
  maxPoint : Int

/-- A positive decimal: positional with at least one digit on either side of the point, or with
one digit before the point and an exponent. -/
def Layout.render (l : Layout) (x : Digits) : Text :=
  let count : Int := x.digits.length
  if 0 < x.point ∧ x.point ≤ l.maxPoint then
    if count ≤ x.point then
      x.digits ++ List.replicate (x.point - count).toNat '0' ++ ['.', '0']
    else x.digits.take x.point.toNat ++ '.' :: x.digits.drop x.point.toNat
  else if l.minPoint < x.point ∧ x.point ≤ 0 then
    ['0', '.'] ++ List.replicate (-x.point).toNat '0' ++ x.digits
  else
    let e := x.point - 1
    let exponent := 'e' :: ((if e < 0 then ['-'] else []) ++ Text.ofNat e.natAbs)
    match x.digits with
    | [] => exponent
    | [d] => d :: exponent
    | d :: ds => d :: '.' :: (ds ++ exponent)

end StyleSnippet.Binary64
