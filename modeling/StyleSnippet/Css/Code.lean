import StyleSnippet.Css.Comment

/-!
# The code of a stylesheet

`codeOnly` is a text without its comments and string literals, whole spans at a time: it skips
from the mark that opens a span to the mark that closes it. It is what an at-rule name is
looked for in, so that an at-sign in a comment or a string does not count.
-/

set_option autoImplicit false

namespace StyleSnippet.Css

/-- The text after the end of a string literal that the given quote opened. -/
def afterQuote (quote : Char) : Text → Text
  | [] => []
  | [_] => []
  | c :: d :: r =>
    if c = '\\' then afterQuote quote r
    else if c = quote then d :: r
    else afterQuote quote (d :: r)

/-- What follows a string literal is no longer than the text that the literal stands in. -/
theorem afterQuote_length (quote : Char) (t : Text) : (afterQuote quote t).length ≤ t.length := by
  fun_induction afterQuote quote t <;> simp_all <;> omega

/-- A text without its comments and string literals. One that never ends reaches to the end. -/
def codeOnly (t : Text) : Text :=
  match t with
  | [] => []
  | c :: r =>
    if c = '"' ∨ c = '\'' then codeOnly (afterQuote c r)
    else match Text.after? "/*" (c :: r), _h : comment? (c :: r) with
      | some _, some (_, rest) => codeOnly rest
      | some _, none => []
      | none, _ => c :: codeOnly r
termination_by t.length
decreasing_by
  · have := afterQuote_length c r
    simp only [List.length_cons]
    omega
  · exact comment?_length _h
  · simp

/-- Whether a character can be part of an at-rule's name. -/
def isNameChar (c : Char) : Bool := c.isAlphanum || c = '_' || c = '-'

/-- The first name that directly follows an at-sign. -/
def firstAtName? : Text → Option Text
  | [] => none
  | c :: r =>
    if c = '@' ∧ r.head?.any isNameChar then some (r.takeWhile isNameChar) else firstAtName? r

/-- What stands behind the last opening brace of a text, which is the whole text if it has none. -/
def behindBrace (t : Text) : Text := (t.reverse.takeWhile (· ≠ '{')).reverse

/-- The name of the at-rule that a block prelude writes, if it writes one. -/
def atRule? (prelude : Text) : Option Text := firstAtName? (behindBrace (codeOnly prelude))

end StyleSnippet.Css
