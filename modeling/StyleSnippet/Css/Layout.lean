import StyleSnippet.Css.Mode

/-!
# Indenting a stylesheet

Blank lines are dropped, and every other line is trimmed and indented by the number of blocks
that are open before it, one level less when the line starts with a closing brace. Braces in
comments and in string literals do not count. A comment may run over several lines; a string
literal is taken to end with its line.
-/

set_option autoImplicit false

namespace StyleSnippet.Css

/-- The indentation of one level. -/
def indentUnit : Text := "    "

/-- What stands between two lines of the output. -/
def lineSeparator : Text := "\n"

/-- The braces of a piece of code, and the mode at its end. -/
structure BraceCount where
  opens : Nat := 0
  closes : Nat := 0
  mode : Mode := .code
  deriving DecidableEq, Repr

namespace BraceCount

/-- Counts one more character. -/
def step (b : BraceCount) (c : Char) : BraceCount :=
  { opens := if b.mode.isCode ∧ c = '{' then b.opens + 1 else b.opens
    closes := if b.mode.isCode ∧ c = '}' then b.closes + 1 else b.closes
    mode := b.mode.next c }

/-- Counts the braces of a text that starts inside a comment or in code. -/
def ofText (inComment : Bool) (t : Text) : BraceCount :=
  t.foldl step { mode := if inComment then .comment else .code }

end BraceCount

/-- The lines of a text that are not blank, trimmed. -/
def inkedLines (t : Text) : List Text :=
  ((Text.lines t).map Text.trim).filter fun line => !line.isEmpty

/-- A line behind the given number of indentation units. -/
def indent (level : Nat) (line : Text) : Text :=
  (List.replicate level indentUnit).flatten ++ line

/-- The level that a line is indented by. -/
def lineLevel (depth : Nat) (inComment : Bool) (line : Text) : Nat :=
  if line.head? = some '}' ∧ inComment = false then depth - 1 else depth

/-- Indents lines that follow the given block depth, inside a comment or not. -/
def indentLines (depth : Nat) (inComment : Bool) : List Text → List Text
  | [] => []
  | line :: rest =>
    let b := BraceCount.ofText inComment line
    indent (lineLevel depth inComment line) line ::
      indentLines (depth + b.opens - b.closes) b.mode.isComment rest

/-- A stylesheet indented by its block nesting. -/
def formatBlock (css : Text) : Text :=
  lineSeparator.intercalate (indentLines 0 false (inkedLines css))

end StyleSnippet.Css
