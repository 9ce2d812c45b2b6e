import StyleSnippet.Text.Visible

/-!
# Quoted text

A message quotes a text between double quotes. Double quotes and backslashes in it are escaped,
and characters that would not be seen are written by a letter or by their code point.
-/

set_option autoImplicit false

namespace StyleSnippet.Text

/-- The characters that are escaped by a backslash and one character. -/
def quoteEscapes : List (Char × Char) :=
  [('\x00', '0'), ('\t', 't'), ('\r', 'r'), ('\n', 'n'), ('"', '"'), ('\\', '\\')]

/-- A character inside of quotes. -/
def quotedChar (c : Char) : Text :=
  match quoteEscapes.lookup c with
  | some letter => ['\\', letter]
  | none =>
    if isVisible c then [c]
    else "\\u" ++ '\x7b' :: (Nat.toDigits 16 c.toNat ++ ['\x7d'])

/-- A text between double quotes. -/
def quoted (t : Text) : Text := '"' :: (t.flatMap quotedChar ++ ['"'])

end StyleSnippet.Text
