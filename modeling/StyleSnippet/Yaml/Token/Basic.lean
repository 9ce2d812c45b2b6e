import StyleSnippet.Text.Basic

/-!
# Tokens of YAML

A YAML document is first cut into tokens. Besides the marks that are written, there are tokens
that only the indentation tells: where a list or mapping starts, and where one ends. Anchors
carry numbers in place of their names, and an alias carries the number of the anchor it means.
-/

set_option autoImplicit false

namespace StyleSnippet.Yaml

/-- The text of a tag. A tag can be written with escapes for bytes; bytes that make no character
are kept as `none`. -/
abbrev TagText := List (Option Char)

namespace TagText

/-- A text as the text of a tag. -/
def ofText (t : Text) : TagText := t.map some

/-- The text of a tag as text; none if some of its bytes make no character. -/
def text? (t : TagText) : Option Text := t.mapM id

/-- Whether a tag is local: it starts with an exclamation mark. -/
def isLocal (t : TagText) : Bool := t.head? = some (some '!')

end TagText

/-- A token. -/
inductive Token
  /-- The directive that tells the version. -/
  | version (major minor : Nat)
  /-- The directive that tells what a tag handle stands for. -/
  | tagHandle (handle : Text) (meaning : TagText)
  | documentStart
  | documentEnd
  /-- The start of a list that is told by indentation. -/
  | listStart
  /-- The start of a mapping that is told by indentation. -/
  | mapStart
  /-- The end of what indentation started. -/
  | blockEnd
  | openList
  | closeList
  | openMap
  | closeMap
  | comma
  | dash
  /-- In front of a key, whether or not a mark is written there. -/
  | key
  /-- In front of the value of a key. -/
  | value
  | alias (number : Nat)
  | anchor (number : Nat)
  | tag (handle : Text) (suffix : TagText)
  /-- A scalar; `plain` tells that it is written without quotes and not as a block. -/
  | scalar (plain : Bool) (text : Text)
  deriving DecidableEq, Repr

end StyleSnippet.Yaml
