import StyleSnippet.Yaml.Character

/-!
# Places in a document

A `Cursor` is a place in a document: the text from there on, and where the place is. Columns
count characters, and the index of a place counts bytes of UTF-8.
-/

set_option autoImplicit false

namespace StyleSnippet.Yaml

/-- A place in a document. -/
structure Cursor where
  /-- The text from the place on. -/
  rest : Text
  /-- The number of bytes before the place. -/
  index : Nat := 0
  /-- The number of lines before the place. -/
  line : Nat := 0
  /-- The number of characters before the place on its line. -/
  column : Nat := 0
  deriving DecidableEq, Repr

namespace Cursor

/-- Goes on by a number of characters on the same line. -/
def skip (c : Cursor) (count : Nat) : Cursor :=
  { c with
    rest := c.rest.drop count
    index := c.index + Text.utf8Length (c.rest.take count)
    column := c.column + count }

/-- Goes on to a later place on the same line, given by the text from there on. -/
def moveTo (c : Cursor) (rest : Text) : Cursor := c.skip (c.rest.length - rest.length)

/-- Goes on past the characters of a class, on the same line. -/
def skipWhile (c : Cursor) (p : Char → Bool) : Cursor := c.skip (c.rest.takeWhile p).length

/-- Goes on past a line end, if there is one. It is read as a line feed, or as itself if it is a
line or paragraph separator. -/
def lineEnd (c : Cursor) : Text × Cursor :=
  match c.rest with
  | '\r' :: '\n' :: r => (['\n'], ⟨r, c.index + 2, c.line + 1, 0⟩)
  | b :: r =>
    if b = '\u2028' ∨ b = '\u2029' then ([b], ⟨r, c.index + b.utf8Size, c.line + 1, 0⟩)
    else if isBreak b then (['\n'], ⟨r, c.index + b.utf8Size, c.line + 1, 0⟩)
    else ([], c)
  | [] => ([], c)

/-- Whether the text goes on with the given character. -/
def startsWith (c : Cursor) (x : Char) : Bool := c.rest.head? = some x

/-- Whether the text goes on with a character of the given class. -/
def startsWithAny (c : Cursor) (p : Char → Bool) : Bool :=
  match c.rest with
  | x :: _ => p x
  | [] => false

/-- Whether the line goes on with nothing, or with a line end. -/
def atLineEnd (c : Cursor) : Bool :=
  match c.rest with
  | x :: _ => isBreak x
  | [] => true

/-- Whether three equal marks that start or end a document are written at the place. -/
def atDocumentMark (c : Cursor) (mark : Char) : Bool :=
  c.column = 0 &&
    match c.rest with
    | x :: y :: z :: r => x = mark && y = mark && z = mark && atGap r
    | _ => false

/-- Whether a document starts or ends at the place. -/
def atDocumentEdge (c : Cursor) : Bool := c.atDocumentMark '-' || c.atDocumentMark '.'

/-- Goes on past a comment, if there is one. -/
def skipComment (c : Cursor) : Cursor :=
  if c.startsWith '#' then c.skipWhile (!isBreak ·) else c

/-- Goes on past the spaces, the comment and the line end that may follow on a line; none if
anything else follows. -/
def finishLine? (c : Cursor) : Option Cursor :=
  let c := (c.skipWhile isSpacing).skipComment
  if c.atLineEnd then some c.lineEnd.2 else none

end Cursor

end StyleSnippet.Yaml
