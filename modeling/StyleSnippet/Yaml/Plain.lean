import StyleSnippet.Yaml.Value

/-!
# What a plain scalar says

A scalar without quotes says null, a boolean, a number, or just its text, and its spelling
alone decides which. Integers are decimal, hexadecimal, octal or binary; a decimal that is
padded with zeros is text. An integer between 64 and 128 bits is refused, and a longer one is
read as a double.
-/

set_option autoImplicit false

namespace StyleSnippet.Yaml

/-- What a plain scalar says. -/
inductive Plain
  | null
  | bool (value : Bool)
  | number (value : Number)
  /-- An integer that is too long to be held and too short to be read as a double. -/
  | beyondRange
  | text
  deriving DecidableEq, Repr

namespace Plain

/-- The spellings of null, besides nothing at all. -/
def nullWords : List Text := ["~", "null", "Null", "NULL"]

/-- The spellings of the booleans. -/
def boolWords : List (Text × Bool) :=
  [("true", true), ("True", true), ("TRUE", true), ("false", false), ("False", false),
   ("FALSE", false)]

/-- The spellings of the doubles that have no digits. -/
def floatWords : List (Text × Binary64) :=
  [(".inf", .infinite false), (".Inf", .infinite false), (".INF", .infinite false),
   ("+.inf", .infinite false), ("+.Inf", .infinite false), ("+.INF", .infinite false),
   ("-.inf", .infinite true), ("-.Inf", .infinite true), ("-.INF", .infinite true),
   (".nan", .nan), (".NaN", .nan), (".NAN", .nan)]

/-- The boolean that a text spells. -/
def bool? (t : Text) : Option Bool := boolWords.lookup t

/-- The value of a digit in the given radix. -/
def digit? (radix : Nat) (c : Char) : Option Nat :=
  let value? :=
    if '0' ≤ c ∧ c ≤ '9' then some (c.toNat - '0'.toNat)
    else if 'a' ≤ c ∧ c ≤ 'f' then some (c.toNat - 'a'.toNat + 10)
    else if 'A' ≤ c ∧ c ≤ 'F' then some (c.toNat - 'A'.toNat + 10)
    else none
  value?.filter (· < radix)

/-- The value of one or more digits in the given radix. -/
def digits? (radix : Nat) : Text → Option Nat
  | [] => none
  | ds => ds.foldlM (fun n c => (digit? radix c).map (radix * n + ·)) 0

/-- Whether decimal digits are padded with zeros. -/
def isPadded (t : Text) : Bool :=
  match (Decimal.cutSign t).2 with
  | '0' :: d :: r => (d :: r).all Char.isDigit
  | _ => false

/-- The integer that a text spells, however long it is. -/
def integer? (t : Text) : Option Int :=
  let (negative, body) := Decimal.cutSign t
  let size? := match body with
    | '0' :: 'x' :: ds => digits? 16 ds
    | '0' :: 'o' :: ds => digits? 8 ds
    | '0' :: 'b' :: ds => digits? 2 ds
    | ds => if isPadded t then none else digits? 10 ds
  size?.map fun n => if negative then -(n : Int) else n

/-- The double that a text spells. A decimal too great for a double spells none. -/
def float? (t : Text) : Option Binary64 :=
  match floatWords.lookup t with
  | some x => some x
  | none => ((Decimal.ofText? t).map Binary64.ofDecimal).filter Binary64.isFinite

/-- The integers of up to 128 bits, signed or not. -/
def isWide (i : Int) : Bool :=
  -170141183460469231731687303715884105728 ≤ i && i < 340282366920938463463374607431768211456

/-- What a text says as an integer, if it spells one of at most 128 bits. -/
def ofInteger? (t : Text) : Option Plain :=
  (integer? t).bind fun i =>
    if Number.fits i then some (.number (.int i))
    else if isWide i then some .beyondRange
    else none

/-- What a plain scalar with the given text says. -/
def ofText (t : Text) : Plain :=
  if t = [] ∨ t ∈ nullWords then .null
  else match bool? t with
    | some b => .bool b
    | none => match ofInteger? t with
      | some p => p
      | none =>
        if isPadded t then .text
        else match float? t with
          | some x => .number (.float x)
          | none => .text

end Plain

end StyleSnippet.Yaml
