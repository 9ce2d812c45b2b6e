import StyleSnippet.Yaml.Value

/-!
# What can be wrong with a settings block

A value that is no settings block has a culprit: a place, and what is wrong there. The place is a
path from the root of the value, of keys and list positions.
-/

set_option autoImplicit false

namespace StyleSnippet

/-- The kinds of values, as messages tell them apart. -/
inductive Shape
  | null | boolean | number | string | list | mapping | tagged
  deriving DecidableEq, Repr

/-- The kind of a value. -/
def Yaml.Value.shape : Yaml.Value → Shape
  | .null => .null
  | .bool _ => .boolean
  | .number _ => .number
  | .string _ => .string
  | .list _ => .list
  | .map _ => .mapping
  | .tagged .. => .tagged

namespace Schema

/-- One step from a value to a part of it. -/
inductive Step
  /-- To the value under a key. -/
  | field (name : Text)
  /-- To the item at a position. -/
  | item (index : Nat)
  deriving DecidableEq, Repr

/-- A way from the root of a value to a part of it. -/
abbrev Path := List Step

/-- What a place can be expected to hold. -/
inductive Expected
  | mapping | list | string | boolean | number | selectOption
  deriving DecidableEq, Repr

/-- What is wrong at a place. -/
inductive Problem
  | mismatch (expected : Expected) (found : Shape)
  | missingField
  | unknownType (name : Text)
  | levelOutOfRange (found : Number)
  deriving DecidableEq, Repr

/-- Why a value is no settings block. -/
structure Error where
  path : Path
  problem : Problem
  deriving DecidableEq, Repr

/-! ### Messages -/

/-- A kind of value, in words. -/
def shapeText : Shape → Text
  | .null => "null"
  | .boolean => "a boolean"
  | .number => "a number"
  | .string => "a string"
  | .list => "a list"
  | .mapping => "a mapping"
  | .tagged => "a tagged value"

/-- An expectation, in words. -/
def Expected.text : Expected → Text
  | mapping => "a mapping"
  | list => "a list"
  | string => "a string"
  | boolean => "a boolean"
  | number => "a number"
  | selectOption => "a string or a label/value pair"

/-- A path, with a point in front of each key but the first and positions in brackets. -/
def Path.text (p : Path) : Text :=
  if p.isEmpty then "<root>"
  else p.foldl (fun acc step =>
    match step with
    | .field name => if acc.isEmpty then name else acc ++ '.' :: name
    | .item i => acc ++ '[' :: (Text.ofNat i ++ [']'])) []

/-- What is wrong, in words. -/
def Problem.text : Problem → Text
  | mismatch expected found =>
    "expected " ++ expected.text ++ ", found " ++ shapeText found
  | missingField => "missing required field"
  | unknownType name => "unknown setting type '" ++ name ++ "'"
  | levelOutOfRange found => "expected a level between 0 and 255, found " ++ found.text

/-- The place and what is wrong there, in words. -/
def Error.text (e : Error) : Text := Path.text e.path ++ ": " ++ e.problem.text

end Schema

end StyleSnippet
