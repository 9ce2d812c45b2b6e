import StyleSnippet.Yaml.Token.Tag

/-!
# Cutting a document into tokens

A document is cut from left to right. Two things cannot be decided on the spot. That a scalar is
a key shows only at the colon behind it, so the last place where a key can have started is
remembered, and the token in front of the key is put there later. And a line that is indented
deeper than the collection around it starts a collection of its own, whose end is the first line
that is indented less.

A key is written on one line, and at most 1024 bytes of UTF-8 lie between its start and its colon.
-/

set_option autoImplicit false

namespace StyleSnippet.Yaml

/-- A place where a key can have started. -/
structure KeyStart where
  /-- Whether the place can hold nothing but a key. -/
  required : Bool
  /-- The number of tokens before the place. -/
  position : Nat
  index : Nat
  line : Nat
  column : Nat
  deriving Repr

/-- A document that has been cut up to some place. -/
structure Lexer where
  cursor : Cursor
  /-- The tokens so far, latest first. -/
  tokens : List Token := []
  /-- The number of tokens so far. -/
  count : Nat := 0
  /-- The column of the innermost collection told by indentation; -1 if there is none. -/
  indent : Int := -1
  /-- The columns of the collections around it, innermost first. -/
  outerIndents : List Int := []
  /-- Whether a key can start at the place. -/
  keyAllowed : Bool := true
  /-- Where the last key can have started, inside the innermost brackets. -/
  keyStart : Option KeyStart := none
  /-- Where keys can have started outside of the brackets, one for each pair of them. -/
  outerKeys : List (Option KeyStart) := []
  /-- The names of anchors, each with the number it has. -/
  anchors : List (Text × Nat) := []

namespace Lexer

/-- Whether the place is inside brackets. -/
def inFlow (s : Lexer) : Bool := !s.outerKeys.isEmpty

/-- Adds a token. -/
def emit (s : Lexer) (t : Token) : Lexer :=
  { s with tokens := t :: s.tokens, count := s.count + 1 }

/-- Adds a token after the given number of tokens. -/
def emitAt (s : Lexer) (position : Nat) (t : Token) : Lexer :=
  let (later, earlier) := s.tokens.splitAt (s.count - position)
  { s with tokens := later ++ t :: earlier, count := s.count + 1 }

/-- Goes on past a mark of the given length and adds its token. -/
def mark (s : Lexer) (length : Nat) (t : Token) : Lexer :=
  ({ s with cursor := s.cursor.skip length }).emit t

/-! ### Keys -/

/-- Gives up the place where a key can have started; none if nothing but a key can stand
there. -/
def dropKey? (s : Lexer) : Option Lexer :=
  if s.keyStart.any (·.required) then none else some { s with keyStart := none }

/-- Remembers that a key can start at the place. -/
def saveKey? (s : Lexer) : Option Lexer :=
  if s.keyAllowed then
    s.dropKey?.map fun s => { s with keyStart := some {
      required := !s.inFlow && s.indent = s.cursor.column
      position := s.count
      index := s.cursor.index
      line := s.cursor.line
      column := s.cursor.column } }
  else some s

/-- The greatest number of bytes from the start of a key to its colon. -/
def maxKeyLength : Nat := 1024

/-- A remembered place, unless the key would be too long or end on a later line. -/
def freshKey? (c : Cursor) : Option KeyStart → Option (Option KeyStart)
  | none => some none
  | some k =>
    if k.line < c.line ∨ k.index + maxKeyLength < c.index then
      if k.required then none else some none
    else some (some k)

/-- Gives up all places where no key can have started any more. -/
def dropStaleKeys? (s : Lexer) : Option Lexer := do
  let keyStart ← freshKey? s.cursor s.keyStart
  let outerKeys ← s.outerKeys.mapM (freshKey? s.cursor)
  return { s with keyStart := keyStart, outerKeys := outerKeys }

/-! ### Indentation -/

/-- Starts a collection at a column if that is deeper than the innermost one. Its token comes
after the given number of tokens. -/
def openBlock (s : Lexer) (column position : Nat) (t : Token) : Lexer :=
  if !s.inFlow && s.indent < column then
    { s.emitAt position t with indent := column, outerIndents := s.indent :: s.outerIndents }
  else s

/-- Leaves the collections deeper than a column: how many there are, and what is left. -/
def leaveBlocks (column : Int) : (indent : Int) → List Int → Nat × Int × List Int
  | indent, [] => (0, indent, [])
  | indent, o :: os =>
    if column < indent then
      let (n, i, rest) := leaveBlocks column o os
      (n + 1, i, rest)
    else (0, indent, o :: os)

/-- Ends the collections that are deeper than a column. -/
def closeBlocks (s : Lexer) (column : Int) : Lexer :=
  if s.inFlow then s
  else
    let (n, indent, outer) := leaveBlocks column s.indent s.outerIndents
    { s with
      tokens := List.replicate n .blockEnd ++ s.tokens
      count := s.count + n
      indent := indent
      outerIndents := outer }

/-! ### Tokens -/

/-- Goes on past white space and comments. A line end lets a key start, outside of brackets; a
tab is white space only where no key can start, or inside brackets. A line may start with a byte
order mark, which takes a column. -/
def skipGaps : (fuel : Nat) → Lexer → Lexer
  | 0, s => s
  | fuel + 1, s =>
    let marked := s.cursor.column = 0 && s.cursor.startsWith '\uFEFF'
    let c := if marked then s.cursor.skip 1 else s.cursor
    let tabs := s.inFlow || !s.keyAllowed
    let c := (c.skipWhile fun x => x = ' ' || (tabs && x = '\t')).skipComment
    if c.startsWithAny isBreak then
      skipGaps fuel { s with cursor := c.lineEnd.2, keyAllowed := s.keyAllowed || !s.inFlow }
    else { s with cursor := c }

/-- A directive, or a mark that starts or ends a document. All collections end before it. -/
def edge? (s : Lexer) (read? : Cursor → Option (Token × Cursor)) : Option Lexer := do
  let s ← (s.closeBlocks (-1)).dropKey?
  let (t, c) ← read? s.cursor
  return { s with cursor := c, keyAllowed := false }.emit t

/-- An opening bracket. -/
def openBracket? (s : Lexer) (t : Token) : Option Lexer :=
  s.saveKey?.map fun s =>
    { s with
      outerKeys := s.keyStart :: s.outerKeys
      keyStart := none
      keyAllowed := true }.mark 1 t

/-- A closing bracket. -/
def closeBracket? (s : Lexer) (t : Token) : Option Lexer :=
  s.dropKey?.map fun s =>
    let s := match s.outerKeys with
      | [] => s
      | k :: ks => { s with keyStart := k, outerKeys := ks }
    { s with keyAllowed := false }.mark 1 t

/-- A comma between brackets. -/
def comma? (s : Lexer) : Option Lexer :=
  s.dropKey?.map fun s => { s with keyAllowed := true }.mark 1 .comma

/-- The dash of a list. -/
def dash? (s : Lexer) : Option Lexer :=
  if !s.inFlow && !s.keyAllowed then none
  else (s.openBlock s.cursor.column s.count .listStart).dropKey?.map fun s =>
    { s with keyAllowed := true }.mark 1 .dash

/-- The question mark in front of a key. -/
def question? (s : Lexer) : Option Lexer :=
  if !s.inFlow && !s.keyAllowed then none
  else (s.openBlock s.cursor.column s.count .mapStart).dropKey?.map fun s =>
    { s with keyAllowed := !s.inFlow }.mark 1 .key

/-- The colon in front of a value. If a key can have started before it, it did. -/
def colon? (s : Lexer) : Option Lexer :=
  match s.keyStart with
  | some k =>
    -- Both tokens go to the place of the key, so the later one comes in front.
    let s := (s.emitAt k.position .key).openBlock k.column k.position .mapStart
    some ({ s with keyStart := none, keyAllowed := false }.mark 1 .value)
  | none =>
    if !s.inFlow && !s.keyAllowed then none
    else
      let s := s.openBlock s.cursor.column s.count .mapStart
      some ({ s with keyAllowed := !s.inFlow }.mark 1 .value)

/-- The number of a new anchor, and the numbers of all anchors with it. A number is the count of
names before it, so an anchor that is set again can share its number with a later one. -/
def nameAnchor (name : Text) (anchors : List (Text × Nat)) : Nat × List (Text × Nat) :=
  let number := anchors.length
  if (anchors.lookup name).isSome then
    (number, anchors.map fun a => if a.1 = name then (name, number) else a)
  else (number, anchors ++ [(name, number)])

/-- An alias. Its anchor must come before it. -/
def alias? (s : Lexer) : Option Lexer := do
  let s ← s.saveKey?
  let (name, c) ← anchorName? s.cursor
  let number ← s.anchors.lookup name
  return { s with cursor := c, keyAllowed := false }.emit (.alias number)

/-- An anchor. -/
def anchor? (s : Lexer) : Option Lexer := do
  let s ← s.saveKey?
  let (name, c) ← anchorName? s.cursor
  let (number, anchors) := nameAnchor name s.anchors
  return { s with cursor := c, keyAllowed := false, anchors := anchors }.emit (.anchor number)

/-- A tag. -/
def tagMark? (s : Lexer) : Option Lexer := do
  let s ← s.saveKey?
  let (t, c) ← tag? s.inFlow s.cursor
  return { s with cursor := c, keyAllowed := false }.emit t

/-- A scalar written as a block. -/
def block? (s : Lexer) (folded : Bool) : Option Lexer := do
  let s ← s.dropKey?
  let (text, c) ← blockScalar? folded s.indent s.cursor
  return { s with cursor := c, keyAllowed := true }.emit (.scalar false text)

/-- A scalar in quotes. -/
def quoted? (s : Lexer) (single : Bool) : Option Lexer := do
  let s ← s.saveKey?
  let (text, c) ← quotedWords? single (s.cursor.rest.length + 1) (s.cursor.skip 1)
  return { s with cursor := c, keyAllowed := false }.emit (.scalar false text)

/-- A plain scalar. A key can start behind it if a line ends there. -/
def plain? (s : Lexer) : Option Lexer := do
  let s ← s.saveKey?
  let (text, broken, c) ←
    plainWords? s.inFlow (s.indent + 1) (s.cursor.rest.length + 1) {} s.cursor
  return { s with cursor := c, keyAllowed := broken }.emit (.scalar true text)

/-- The characters that no plain scalar starts with. -/
def indicators : List Char :=
  ['-', '?', ':', ',', '[', ']', '{', '}', '#', '&', '*', '!', '|', '>', '\'', '"', '%', '@',
   '\x60']

/-- Whether a plain scalar starts with a character in front of a text. A dash, and outside of
brackets a question mark or a colon, starts one if no white space follows. -/
def startsPlain (inFlow : Bool) (x : Char) (r : Text) : Bool :=
  (!isGap x && x ∉ indicators) ||
    (x = '-' && !r.head?.any isSpacing) ||
    (!inFlow && (x = '?' || x = ':') && !atGap r)

/-- Reads one token that starts with a character in front of a text. -/
def token? (s : Lexer) (x : Char) (r : Text) : Option Lexer :=
  let c := s.cursor
  if c.column = 0 ∧ x = '%' then s.edge? directive?
  else if c.atDocumentMark '-' then s.edge? fun c => some (.documentStart, c.skip 3)
  else if c.atDocumentMark '.' then s.edge? fun c => some (.documentEnd, c.skip 3)
  else if x = '[' then s.openBracket? .openList
  else if x = '{' then s.openBracket? .openMap
  else if x = ']' then s.closeBracket? .closeList
  else if x = '}' then s.closeBracket? .closeMap
  else if x = ',' then s.comma?
  else if x = '-' ∧ atGap r then s.dash?
  else if x = '?' ∧ (s.inFlow ∨ atGap r) then s.question?
  else if x = ':' ∧ (s.inFlow ∨ atGap r) then s.colon?
  else if x = '*' then s.alias?
  else if x = '&' then s.anchor?
  else if x = '!' then s.tagMark?
  else if x = '|' ∧ !s.inFlow then s.block? false
  else if x = '>' ∧ !s.inFlow then s.block? true
  else if x = '\'' then s.quoted? true
  else if x = '"' then s.quoted? false
  else if startsPlain s.inFlow x r then s.plain?
  else none

/-- The tokens from a place on, after those before it. -/
def run? : (fuel : Nat) → Lexer → Option (List Token)
  | 0, _ => none
  | fuel + 1, s => do
    let s ← (skipGaps (s.cursor.rest.length + 1) s).dropStaleKeys?
    let s := s.closeBlocks s.cursor.column
    match s.cursor.rest with
    | [] => return (← (s.closeBlocks (-1)).dropKey?).tokens.reverse
    | x :: r => run? fuel (← s.token? x r)

end Lexer

/-- The tokens of a document. Every token takes a character, so their number is bounded by the
length of the text. -/
def Token.ofText? (t : Text) : Option (List Token) :=
  if t.all isReadable then Lexer.run? (t.length + 1) { cursor := { rest := t } } else none

end StyleSnippet.Yaml
