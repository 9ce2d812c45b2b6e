import StyleSnippet.Css.Mode
import StyleSnippet.Css.Comment

/-!
# Selector lists

A selector list is split at its top-level commas: a comma in a comment, in a string literal, in
parentheses or in square brackets belongs to the selector it stands in. Each selector then gets
the scope class and a space in front of its first character that is neither white space nor in
a complete comment, unless it starts with the class already. White space and comments in front
of a selector stay where they are.
-/

set_option autoImplicit false

namespace StyleSnippet.Css

/-! ### Splitting -/

/-- The bracket depth after a character of code. A stray closing bracket does not go below the
top level. -/
def bracketDepth (depth : Nat) (c : Char) : Nat :=
  if c = '(' ∨ c = '[' then depth + 1
  else if c = ')' ∨ c = ']' then depth - 1
  else depth

/-- The text up to the first top-level comma and the parts after it, for text that follows the
given mode and bracket depth. -/
def splitFrom (m : Mode) (depth : Nat) : Text → Text × List Text
  | [] => ([], [])
  | c :: r =>
    let depth' := if m.isCode then bracketDepth depth c else depth
    let rest := splitFrom (m.next c) depth' r
    if m.isCode ∧ c = ',' ∧ depth = 0 then ([], rest.1 :: rest.2)
    else (c :: rest.1, rest.2)

/-- The parts of a selector list between its top-level commas. There is always at least one. -/
def splitSelectors (t : Text) : List Text :=
  let p := splitFrom .code 0 t
  p.1 :: p.2

/-! ### Prefixing -/

/-- Whether a character may follow a class that is a whole token. -/
def endsClass (c : Char) : Bool :=
  Text.isBlank c || c ∈ ['>', '+', '~', '.', '#', ':', '[', '{', ',']

/-- Whether a text starts with a scope class as a whole token. -/
def startsWithClass (scope t : Text) : Bool :=
  match Text.after? scope t with
  | none => false
  | some [] => true
  | some (c :: _) => endsClass c

/-- Whether a selector starts with the scope class, comments and outer white space aside. -/
def isScoped (scope selector : Text) : Bool :=
  startsWithClass scope (Text.trim (stripComments selector))

/-- A selector with the scope class in front of its first character, unless it has none or is
scoped already. -/
def prefixSelector (scope selector : Text) : Text :=
  if isScoped scope selector then selector
  else match cutLead selector with
    | (_, []) => selector
    | (lead, body) => lead ++ scope ++ ' ' :: body

/-- A selector list with every selector confined to the scope class. A blank class confines
nothing. -/
def prefixSelectors (scope t : Text) : Text :=
  if Text.isAllBlank scope then t
  else [','].intercalate ((splitSelectors t).map (prefixSelector scope))

end StyleSnippet.Css
