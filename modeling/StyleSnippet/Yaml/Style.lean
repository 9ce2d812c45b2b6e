import StyleSnippet.Yaml.Character
import StyleSnippet.Yaml.Plain

/-!
# How a string is written

A string is written plain where a plain scalar reads back as the same string and is not all
digits padded with zeros, and otherwise in single quotes, in double quotes, or, when it has
several lines, as a literal block. This module chooses.
-/

set_option autoImplicit false

namespace StyleSnippet.Yaml

/-- The ways to write a scalar. -/
inductive Style
  | plain
  | singleQuoted
  | doubleQuoted
  | literal
  deriving DecidableEq, Repr

namespace Style

/-- The characters that no plain scalar starts with. -/
def indicators : List Char :=
  ['#', ',', '[', ']', '{', '}', '&', '*', '!', '|', '>', '\'', '"', '%', '@', '\x60']

/-- Whether a colon in front of white space, or a number sign behind it, stands in a text. The
flag says whether white space stands before the text. -/
def hasInnerIndicator (afterGap : Bool) : Text → Bool
  | [] => false
  | c :: r =>
    (c = ':' && atGap r) || (c = '#' && afterGap) || hasInnerIndicator (isGap c) r

/-- Whether a text would be taken for something other than a plain scalar. -/
def hasIndicator (t : Text) : Bool :=
  (Text.after? "---" t).isSome || (Text.after? "..." t).isSome ||
  (match t with
    | [] => false
    | c :: r => c ∈ indicators || ((c = '?' || c = '-') && atGap r)) ||
  hasInnerIndicator true t

/-- Whether one character of a text is directly followed by another, each of the given kind. -/
def hasPair (first second : Char → Bool) : Text → Bool
  | c :: d :: r => (first c && second d) || hasPair first second (d :: r)
  | _ => false

/-- Whether a text has a space right before a line end. -/
def hasSpaceBreak (t : Text) : Bool := hasPair (· = ' ') isBreak t

/-- Whether a text has a space right after a line end. -/
def hasBreakSpace (t : Text) : Bool := hasPair isBreak (· = ' ') t

/-- Whether a text can be written as a plain scalar, whatever that says. -/
def allowsPlain (t : Text) : Bool :=
  t.head? ≠ some ' ' && t.getLast? ≠ some ' ' && !hasIndicator t &&
    t.all fun c => isPrintable c && !isBreak c

/-- Whether a text can be written in single quotes. -/
def allowsSingleQuoted (t : Text) : Bool :=
  t.all isPrintable && !hasSpaceBreak t && !hasBreakSpace t

/-- Whether a text can be written as a literal block. -/
def allowsLiteral (t : Text) : Bool :=
  t.all isPrintable && !hasSpaceBreak t && t.getLast? ≠ some ' '

/-- The style that a string is written in. -/
def ofString (t : Text) : Style :=
  if '\n' ∈ t then
    if allowsLiteral t then literal else doubleQuoted
  else if Plain.ofText t = .text ∧ !Plain.isPadded t ∧ allowsPlain t then plain
  else if allowsSingleQuoted t then singleQuoted
  else doubleQuoted

end Style

end StyleSnippet.Yaml
