import StyleSnippet.Text.Basic

/-!
# What a character of a stylesheet is part of

A character of CSS text is code, or lies in a comment, or lies in a string literal. Which of
these holds is decided from left to right by a small automaton: `Mode` is what the characters
read so far amount to, and `Mode.next` reads one more.

The automaton never looks ahead. A solidus in code is remembered (`slash`) because an asterisk
right after it opens a comment, and an asterisk in a comment is remembered (`star`) because a
solidus right after it closes the comment. The asterisk that opens a comment cannot also close
it, so `/*/` is an open comment.
-/

set_option autoImplicit false

namespace StyleSnippet.Css

/-- What the text read so far leaves open. -/
inductive Mode
  /-- Outside comments and strings. -/
  | code
  /-- Outside comments and strings, right after a solidus. -/
  | slash
  /-- In a comment. -/
  | comment
  /-- In a comment, right after an asterisk that is not the one that opened it. -/
  | star
  /-- In a string opened by the given quote. -/
  | quoted (quote : Char)
  /-- In a string opened by the given quote, right after a backslash that escapes. -/
  | escaped (quote : Char)
  deriving DecidableEq, Repr

namespace Mode

/-- Whether a mode is outside comments and strings. -/
def isCode : Mode → Bool
  | code | slash => true
  | _ => false

/-- Whether a mode is inside a comment. -/
def isComment : Mode → Bool
  | comment | star => true
  | _ => false

/-- Code is read plainly or right after a solidus. -/
theorem eq_code_or_slash {m : Mode} (h : m.isCode = true) : m = code ∨ m = slash := by
  cases m <;> simp [isCode] at h ⊢

/-- A comment is read plainly or right after an asterisk. -/
theorem eq_comment_or_star {m : Mode} (h : m.isComment = true) : m = comment ∨ m = star := by
  cases m <;> simp [isComment] at h ⊢

/-- The mode after a character of code. -/
def afterCode (c : Char) : Mode :=
  if c = '/' then slash
  else if c = '"' ∨ c = '\'' then quoted c
  else code

/-- The mode after one more character. -/
def next : Mode → Char → Mode
  | code, c => afterCode c
  | slash, c => if c = '*' then comment else afterCode c
  | comment, c => if c = '*' then star else comment
  | star, c => if c = '/' then code else if c = '*' then star else comment
  | quoted q, c => if c = '\\' then escaped q else if c = q then code else quoted q
  | escaped q, _ => quoted q

/-- The mode after a text. -/
def after (m : Mode) (t : Text) : Mode := t.foldl next m

/-- Reading nothing changes nothing. -/
@[simp] theorem after_nil (m : Mode) : m.after [] = m := rfl

/-- A text is read from its first character on. -/
@[simp] theorem after_cons (m : Mode) (c : Char) (t : Text) :
    m.after (c :: t) = (m.next c).after t := rfl

/-- Reading two texts one after the other is reading their concatenation. -/
theorem after_append (m : Mode) (s t : Text) : m.after (s ++ t) = (m.after s).after t :=
  List.foldl_append

end Mode

end StyleSnippet.Css
