import StyleSnippet.Yaml.Token.Basic
import StyleSnippet.Yaml.Token.Scalar

/-!
# Tags, anchors and directives

A tag is written out between `!<` and `>`, or as a handle and a suffix. This module reads tags,
the names of anchors, and the two directives that may stand in front of a document.
-/

set_option autoImplicit false

namespace StyleSnippet.Yaml

/-- The characters of a tag, besides those of names and escapes. -/
def uriChars : List Char :=
  [';', '/', '?', ':', '@', '&', '=', '+', '$', '.', '!', '~', '*', '\'', '(', ')']

/-- Whether a character can be part of a tag. Where a tag is written out, commas and square
brackets can be, too. -/
def isUriChar (whole : Bool) (c : Char) : Bool :=
  isNameChar c || c ∈ uriChars || (whole && c ∈ [',', '[', ']'])

/-- The byte that an escape at the start of a text says, and the text after it. -/
def escapedByte? (t : Text) : Option (Nat × Text) :=
  match t with
  | '%' :: a :: b :: r => do return (16 * (← hexDigit? a) + (← hexDigit? b), r)
  | _ => none

/-- The rest of an escaped character: `count` more bytes, of six bits each. -/
def escapedTail? : (count acc : Nat) → Text → Option (Nat × Text)
  | 0, acc, t => some (acc, t)
  | count + 1, acc, t => do
    let (b, r) ← escapedByte? t
    if b / 64 = 2 then escapedTail? count (64 * acc + b % 64) r else none

/-- The character that escapes at the start of a text say, one for each of its bytes, and the
text after them. The first byte tells how many there are. They make no character if there is
none with that number, or if fewer bytes would do for it. -/
def escapedChar? (t : Text) : Option (Option Char × Text) := do
  let (b, r) ← escapedByte? t
  let (more, high) ←
    if b < 0x80 then some (0, b)
    else if b / 32 = 6 then some (1, b % 32)
    else if b / 16 = 14 then some (2, b % 16)
    else if b / 8 = 30 then some (3, b % 8)
    else none
  let (n, r) ← escapedTail? more high r
  return ((charOfNat? n).filter (·.utf8Size = more + 1), r)

/-- The piece of a tag at the start of a text, and the text after it. -/
def uri? (whole : Bool) : (fuel : Nat) → Text → Option (TagText × Text)
  | 0, _ => none
  | fuel + 1, t =>
    match t with
    | [] => some ([], [])
    | c :: r =>
      if c = '%' then do
        let (x, r') ← escapedChar? t
        let (more, rest) ← uri? whole fuel r'
        return (x :: more, rest)
      else if isUriChar whole c then (uri? whole fuel r).map fun p => (some c :: p.1, p.2)
      else some ([], t)

/-- The piece of a tag from a place on, after the given start. It must not be empty, and a null
character in it hides all that follows. -/
def uriFrom? (whole : Bool) (start : Text) (c : Cursor) : Option (TagText × Cursor) := do
  let (more, rest) ← uri? whole (c.rest.length + 1) c.rest
  if start.isEmpty && more.isEmpty then none
  else some ((TagText.ofText start ++ more).takeWhile (· ≠ some '\x00'), c.moveTo rest)

/-- The tag handle from a place on: an exclamation mark, name characters, and perhaps another
exclamation mark. -/
def tagHandle? (c : Cursor) : Option (Text × Cursor) :=
  match c.rest with
  | '!' :: r =>
    let name := r.takeWhile isNameChar
    match r.dropWhile isNameChar with
    | '!' :: rest => some ('!' :: (name ++ ['!']), c.moveTo rest)
    | rest => some ('!' :: name, c.moveTo rest)
  | _ => none

/-- Whether a handle has a name of its own or is the double one, so that a suffix follows. -/
def isFullHandle (handle : Text) : Bool :=
  2 ≤ handle.length && handle.getLast? = some '!'

/-- The handle and the suffix of a tag from a place on. -/
def tagParts? (c : Cursor) : Option (Text × TagText × Cursor) :=
  match c.rest with
  | '!' :: '<' :: _ => do
    let (suffix, c') ← uriFrom? true [] (c.skip 2)
    if c'.startsWith '>' then some ([], suffix, c'.skip 1) else none
  | _ => do
    let (handle, c') ← tagHandle? c
    if isFullHandle handle then
      let (suffix, last) ← uriFrom? false [] c'
      return (handle, suffix, last)
    else
      let (whole, last) ← uriFrom? false handle c'
      match whole.drop 1 with
      | [] => return ([], [some '!'], last)
      | suffix => return (['!'], suffix, last)

/-- The tag from a place on. White space must follow it, or a comma inside brackets. -/
def tag? (inFlow : Bool) (c : Cursor) : Option (Token × Cursor) := do
  let (handle, suffix, c') ← tagParts? c
  if atGap c'.rest || (inFlow && c'.startsWith ',') then some (.tag handle suffix, c')
  else none

/-- The name of an anchor or alias behind its mark. -/
def anchorName? (c : Cursor) : Option (Text × Cursor) :=
  let c := c.skip 1
  let name := c.rest.takeWhile isNameChar
  let c' := c.skip name.length
  let ends := ['?', ':', ',', ']', '}', '%', '@', '\x60']
  if name ≠ [] ∧ (atGap c'.rest ∨ c'.startsWithAny (· ∈ ends))
  then some (name, c')
  else none

/-- A number of at most nine digits from a place on. -/
def versionNumber? (c : Cursor) : Option (Nat × Cursor) :=
  let ds := c.rest.takeWhile Char.isDigit
  if ds = [] ∨ 9 < ds.length then none
  else some (ds.foldl (fun n d => 10 * n + (d.toNat - '0'.toNat)) 0, c.skip ds.length)

/-- The directive from a place on, to the end of its line. -/
def directive? (c : Cursor) : Option (Token × Cursor) := do
  let c := c.skip 1
  let name := c.rest.takeWhile isNameChar
  let c := c.skip name.length
  if !atGap c.rest then none
  else if name = "YAML".toList then
    let (major, c) ← versionNumber? (c.skipWhile isSpacing)
    if !c.startsWith '.' then none
    else
      let (minor, c) ← versionNumber? (c.skip 1)
      return (.version major minor, ← c.finishLine?)
  else if name = "TAG".toList then
    let (handle, c) ← tagHandle? (c.skipWhile isSpacing)
    if !(handle = ['!'] || isFullHandle handle) || !c.startsWithAny isSpacing then none
    else
      let (meaning, c) ← uriFrom? true [] (c.skipWhile isSpacing)
      if !atGap c.rest then none
      else return (.tagHandle handle meaning, ← c.finishLine?)
  else none

end StyleSnippet.Yaml
