import StyleSnippet.Yaml.Style

/-!
# Writing YAML

A value is written in block style with two spaces for a level. A list inside a mapping stands
at the mapping's own level, a list inside a list starts on the line of its dash, and empty
collections are written `[]` and `{}`. Lines are never folded.

`Pen` is the text written so far together with what decides where the next piece goes. The
functions on it put one piece each, and `Value.putOn` puts a whole value.
-/

set_option autoImplicit false

namespace StyleSnippet.Yaml

/-- The text written so far, and what the next piece has to know of it. -/
structure Pen where
  /-- The text, last character first. -/
  written : Text := []
  /-- The number of characters on the current line. -/
  column : Nat := 0
  /-- Whether a piece can follow without a space. -/
  spaced : Bool := true
  /-- Whether the line holds only indentation and marks that start a level. -/
  fresh : Bool := true
  deriving Repr

namespace Pen

/-- Puts one character. -/
def put (p : Pen) (c : Char) : Pen :=
  { p with written := c :: p.written, column := p.column + 1 }

/-- Puts characters that end no line. -/
def puts (p : Pen) (t : Text) : Pen := t.foldl put p

/-- A text is put down character by character. -/
theorem puts_cons (p : Pen) (c : Char) (t : Text) : p.puts (c :: t) = (p.put c).puts t := rfl

/-- Ends the line with the given character. -/
def endLine (p : Pen) (c : Char) : Pen := { p with written := c :: p.written, column := 0 }

/-- Goes to a column where a new level or entry can start, on a new line unless this one is
fresh and not past it. -/
def indent (p : Pen) (column : Nat) : Pen :=
  let start :=
    if !p.fresh || column < p.column || (p.column = column && !p.spaced) then p.endLine '\n' else p
  { start.puts (List.replicate (column - start.column) ' ') with spaced := true, fresh := true }

/-- Puts a mark. `spaceBefore` asks for a space in front unless one is there; `startsLevel` says
that a level can start on the line of the mark. -/
def mark (p : Pen) (t : Text) (spaceBefore startsLevel : Bool) : Pen :=
  let start := if spaceBefore && !p.spaced then p.put ' ' else p
  { start.puts t with spaced := false, fresh := p.fresh && startsLevel }

/-- Puts a text as it is. -/
def plain (p : Pen) (t : Text) : Pen := p.mark t true false

/-- Puts one character of a scalar that may run over several lines. A line end is copied, and
the first character of the next line is indented. The flag says whether a line has just
ended. -/
def runOn (escape : Char → Text) (column : Nat) : Pen × Bool → Char → Pen × Bool
  | (p, ended), c =>
    if isBreak c then ({ p.endLine c with fresh := true }, true)
    else ({ (if ended then p.indent column else p).puts (escape c) with fresh := false }, false)

/-- A character inside single quotes. -/
def quoteTwice (c : Char) : Text := if c = '\'' then ['\'', '\''] else [c]

/-- Puts a text in single quotes. -/
def singleQuoted (p : Pen) (column : Nat) (t : Text) : Pen :=
  let (p, ended) := t.foldl (runOn quoteTwice column) (p.mark "'" true false, false)
  (if ended then p.indent column else p).mark "'" false false

/-- The escapes that have a letter of their own. -/
def letterEscapes : List (Char × Char) :=
  [('\x00', '0'), ('\x07', 'a'), ('\x08', 'b'), ('\x09', 't'), ('\n', 'n'), ('\x0b', 'v'),
   ('\x0c', 'f'), ('\r', 'r'), ('\x1b', 'e'), ('"', '"'), ('\\', '\\'), ('\x85', 'N'),
   ('\xa0', '_'), ('\u2028', 'L'), ('\u2029', 'P')]

/-- The given number of upper-case hexadecimal digits. -/
def hex (count n : Nat) : Text :=
  let ds := (Nat.toDigits 16 n).map Char.toUpper
  List.replicate (count - ds.length) '0' ++ ds

/-- A character inside double quotes. -/
def escaped (c : Char) : Text :=
  if isPrintable c && !isBreak c && c ≠ '"' && c ≠ '\\' then [c]
  else match letterEscapes.lookup c with
    | some letter => ['\\', letter]
    | none =>
      let n := c.toNat
      if n ≤ 0xFF then '\\' :: 'x' :: hex 2 n
      else if n ≤ 0xFFFF then '\\' :: 'u' :: hex 4 n
      else '\\' :: 'U' :: hex 8 n

/-- Puts a text in double quotes. -/
def doubleQuoted (p : Pen) (t : Text) : Pen :=
  ((p.mark "\"" true false).puts (t.flatMap escaped)).mark "\"" false false

/-- What follows the bar of a literal block: the indentation when the text does not show it, and
what becomes of the line ends at the end of the text. -/
def literalHint (t : Text) : Text :=
  let indentation : Text := match t with
    | c :: _ => if c = ' ' ∨ isBreak c then ['2'] else []
    | [] => []
  let ending : Text := match t.reverse with
    | [] => ['-']
    | [c] => if isBreak c then ['+'] else ['-']
    | c :: d :: _ => if !isBreak c then ['-'] else if isBreak d then ['+'] else []
  indentation ++ ending

/-- Puts a text as a literal block. -/
def literal (p : Pen) (column : Nat) (t : Text) : Pen :=
  let head := ((p.mark "|" true false).mark (literalHint t) false false).endLine '\n'
  (t.foldl (runOn List.singleton column) ({ head with fresh := true, spaced := true }, true)).1

/-- Puts a string in the style that suits it. -/
def string (p : Pen) (column : Nat) (t : Text) : Pen :=
  match Style.ofString t with
  | .plain => p.plain t
  | .singleQuoted => p.singleQuoted column t
  | .doubleQuoted => p.doubleQuoted t
  | .literal => p.literal column t

end Pen

/-! ### Tags -/

/-- The characters, besides letters, digits, `-` and `_`, that a tag holds unescaped. -/
def tagChars : List Char :=
  [';', '/', '?', ':', '@', '&', '=', '+', '$', ',', '.', '~', '*', '\'', '(', ')', '[', ']']

/-- The bytes of a character, each behind a percent sign. -/
def percentEscape (c : Char) : Text :=
  (String.ofList [c]).toUTF8.toList.flatMap fun b => '%' :: Pen.hex 2 b.toNat

/-- A piece of a tag, escaped. -/
def tagContent (t : Text) : Text :=
  t.flatMap fun c => if isNameChar c || c ∈ tagChars then [c] else percentEscape c

/-- A tag behind its exclamation mark. -/
def bangTag (tag : Text) : Text :=
  match bareTag tag with
  | '!' :: r => '!' :: r
  | t => '!' :: t

/-- The part of a tag that is written, behind its exclamation mark. A null character hides all
that follows. -/
def shownTag (tag : Text) : Text := (bangTag tag).takeWhile (· ≠ '\x00')

/-- A tag as it is written. -/
def tagText (tag : Text) : Text :=
  match shownTag tag with
  | '!' :: c :: r => '!' :: tagContent (c :: r)
  | t => ['!', '<'] ++ tagContent t ++ ['>']

namespace Pen

/-- Puts a tag, if there is one. -/
def tag (p : Pen) : Option Text → Pen
  | none => p
  | some t => p.plain (tagText t)

end Pen

/-! ### Values -/

/-- Where a collection or scalar is written. -/
structure Place where
  /-- The column of the collection around it, if there is one. -/
  parent : Option Nat := none
  /-- Whether it is a key or a value of a mapping. -/
  inMap : Bool := false
  /-- The tag in front of it. -/
  tag : Option Text := none

namespace Place

/-- The column of the further lines of a scalar. -/
def scalarColumn (l : Place) : Nat :=
  match l.parent with
  | some n => n + 2
  | none => 2

/-- The column of the entries of a mapping. -/
def mapColumn (l : Place) : Nat :=
  match l.parent with
  | some n => n + 2
  | none => 0

/-- The column of the items of a list. -/
def listColumn (l : Place) (p : Pen) : Nat :=
  match l.parent with
  | some n => if l.inMap && !p.fresh then n else n + 2
  | none => 0

end Place

/-- The longest key, in bytes, that stands on the line of its value. -/
def maxSimpleKey : Nat := 128

/-- The number of bytes that a tag adds to a key. -/
def tagLength : Option Text → Nat
  | none => 0
  | some t => Text.utf8Length (shownTag t)

/-- Whether a key, with the given tag, stands on the line of its value. -/
def isSimpleKey (tag : Option Text) : Value → Bool
  | .null => tagLength tag + 4 ≤ maxSimpleKey
  | .bool b => tagLength tag + (if b then 4 else 5) ≤ maxSimpleKey
  | .number n => tagLength tag + Text.utf8Length n.text ≤ maxSimpleKey
  | .string s => !s.any isBreak && tagLength tag + Text.utf8Length s ≤ maxSimpleKey
  | .list items => items.isEmpty && tagLength tag ≤ maxSimpleKey
  | .map entries => entries.isEmpty && tagLength tag ≤ maxSimpleKey
  | .tagged t v => isSimpleKey (some t) v

namespace Value

mutual

/-- Puts a value. -/
def putOn (l : Place) (p : Pen) : Value → Pen
  | .null => (p.tag l.tag).plain "null"
  | .bool b => (p.tag l.tag).plain (if b then "true" else "false")
  | .number n => (p.tag l.tag).plain n.text
  | .string s => (p.tag l.tag).string l.scalarColumn s
  | .tagged t v => putOn { l with tag := some t } p v
  | .list [] => (p.tag l.tag).mark "[]" true false
  | .list (item :: items) =>
    let p := p.tag l.tag
    putItems (l.listColumn p) p (item :: items)
  | .map [] => (p.tag l.tag).mark "{}" true false
  | .map (e :: es) => putEntries l.mapColumn (p.tag l.tag) (e :: es)

/-- Puts the items of a list at a column. -/
def putItems (column : Nat) (p : Pen) : List Value → Pen
  | [] => p
  | item :: items =>
    let dash := (p.indent column).mark "-" true true
    putItems column (putOn { parent := some column } dash item) items

/-- Puts the entries of a mapping at a column. -/
def putEntries (column : Nat) (p : Pen) : List (Value × Value) → Pen
  | [] => p
  | (key, value) :: rest =>
    let inside : Place := { parent := some column, inMap := true }
    let p := p.indent column
    let colon :=
      if isSimpleKey none key then (putOn inside p key).mark ":" false false
      else ((putOn inside (p.mark "?" true true) key).indent column).mark ":" true true
    putEntries column (putOn inside colon value) rest

end

/-! ### Documents -/

/-- Whether a mapping with this key as its only one cannot be written: in front of a tag, or of
another mapping with one entry, the start of the mapping gets lost. -/
def hidesMapping : Value → Bool
  | .tagged .. => true
  | .map entries => entries.length = 1
  | _ => false

mutual

/-- Whether a value has a written form. A tag in front of a tag has none, nor has an untagged
mapping whose only key hides it. The flag says whether a tag stands in front. -/
def isWritable (tagged : Bool) : Value → Bool
  | .tagged _ v => !tagged && isWritable true v
  | .list items => itemsWritable items
  | .map [(key, value)] =>
    (tagged || !hidesMapping key) && isWritable false key && isWritable false value
  | .map entries => entriesWritable entries
  | _ => true

/-- Whether all items of a list have a written form. -/
def itemsWritable : List Value → Bool
  | [] => true
  | item :: items => isWritable false item && itemsWritable items

/-- Whether all entries of a mapping have a written form. -/
def entriesWritable : List (Value × Value) → Bool
  | [] => true
  | (key, value) :: rest =>
    isWritable false key && isWritable false value && entriesWritable rest

end

end Value

/-- The document that says a value, if it has a written form. -/
def write? (v : Value) : Option Text :=
  if v.isWritable false then some (((v.putOn {} {}).indent 0).written.reverse) else none

end StyleSnippet.Yaml
