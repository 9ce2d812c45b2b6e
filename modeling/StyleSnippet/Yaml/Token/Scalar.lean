import StyleSnippet.Yaml.Token.Cursor

/-!
# The text of a scalar

Scalars are written plain, in quotes, or as a block. In plain and quoted scalars the white space
between two words is a gap: a gap on one line is kept, and a gap with line ends is folded, one
line end into a space and several into all but the first. A block keeps its lines, or folds them
in the same way.

Loops over words and lines are bounded by the length of the text.
-/

set_option autoImplicit false

namespace StyleSnippet.Yaml

/-! ### Folding -/

/-- A line end and the empty lines after it, folded. -/
def foldBreaks (first others : Text) : Text :=
  if first = ['\n'] then (if others = [] then [' '] else others) else first ++ others

/-- White space between two words. -/
structure Gap where
  /-- Whether a line has ended in it. -/
  broken : Bool := false
  /-- The spaces before the first line end. -/
  blanks : Text := []
  /-- The first line end. -/
  first : Text := []
  /-- The other line ends. -/
  others : Text := []
  deriving Repr

namespace Gap

/-- What a gap says. -/
def text (g : Gap) : Text := if g.broken then foldBreaks g.first g.others else g.blanks

/-- Reads the white space from a place on, into a gap. With a limit, a tab that indents a line
to less than the limit is refused. -/
def read? (limit : Option Int) : (fuel : Nat) → Gap → Cursor → Option (Gap × Cursor)
  | 0, _, _ => none
  | fuel + 1, g, c =>
    match c.rest with
    | [] => some (g, c)
    | x :: _ =>
      if isBreak x then
        let (e, c') := c.lineEnd
        let g' :=
          if g.broken then { g with others := g.others ++ e }
          else { g with broken := true, blanks := [], first := e }
        read? limit fuel g' c'
      else if isSpacing x then
        if g.broken then
          if x = '\t' ∧ limit.any (fun n => decide ((c.column : Int) < n)) then none
          else read? limit fuel g (c.skip 1)
        else read? limit fuel { g with blanks := g.blanks ++ [x] } (c.skip 1)
      else some (g, c)

/-- Reads the white space from a place on. -/
def ofCursor? (limit : Option Int) (g : Gap) (c : Cursor) : Option (Gap × Cursor) :=
  read? limit (c.rest.length + 1) g c

end Gap

/-! ### Plain scalars -/

/-- The characters that end a plain scalar inside brackets. -/
def isFlowMark (c : Char) : Bool := c ∈ [',', '[', ']', '{', '}']

/-- The word of a plain scalar at the start of a text, and the text after it. Inside brackets, a
colon in front of a bracket, a comma or a question mark is refused. -/
def plainWord? (inFlow : Bool) : Text → Option (Text × Text)
  | [] => some ([], [])
  | c :: r =>
    if isGap c then some ([], c :: r)
    else if inFlow && c = ':' && r.head?.any (fun d => isFlowMark d || d = '?') then none
    else if (c = ':' && atGap r) || (inFlow && isFlowMark c) then some ([], c :: r)
    else (plainWord? inFlow r).map fun p => (c :: p.1, p.2)

/-- The words of a plain scalar from a place on, after a gap. The flag tells whether the scalar
is followed by the end of a line. A line must be indented to `indent`, unless it stands inside
brackets. -/
def plainWords? (inFlow : Bool) (indent : Int) : (fuel : Nat) → Gap → Cursor →
    Option (Text × Bool × Cursor)
  | 0, _, _ => none
  | fuel + 1, g, c =>
    if c.atDocumentEdge || c.startsWith '#' then some ([], g.broken, c)
    else do
      let (word, rest) ← plainWord? inFlow c.rest
      let c' := c.moveTo rest
      -- In front of an empty word the gap is no part of the text.
      let before := if word = [] then [] else g.text
      let g' := if word = [] then g else {}
      if !c'.startsWithAny isGap then return (before ++ word, g'.broken, c')
      let (gap, c'') ← Gap.ofCursor? (some indent) g' c'
      if !inFlow && (c''.column : Int) < indent then return (before ++ word, gap.broken, c'')
      let (more, broken, last) ← plainWords? inFlow indent fuel gap c''
      return (before ++ word ++ more, broken, last)

/-! ### Quoted scalars -/

/-- The characters that a backslash and one letter stand for. -/
def escapeLetters : List (Char × Char) :=
  [('0', '\x00'), ('a', '\x07'), ('b', '\x08'), ('t', '\t'), ('\t', '\t'), ('n', '\n'),
   ('v', '\x0b'), ('f', '\x0c'), ('r', '\r'), ('e', '\x1b'), (' ', ' '), ('"', '"'),
   ('/', '/'), ('\\', '\\'), ('N', '\x85'), ('_', '\xa0'), ('L', '\u2028'), ('P', '\u2029')]

/-- The number of digits after a backslash and one letter. -/
def escapeDigits : List (Char × Nat) := [('x', 2), ('u', 4), ('U', 8)]

/-- The value of a hexadecimal digit. -/
def hexDigit? (c : Char) : Option Nat :=
  if c.isDigit then some (c.toNat - '0'.toNat)
  else if 'a' ≤ c ∧ c ≤ 'f' then some (c.toNat - 'a'.toNat + 10)
  else if 'A' ≤ c ∧ c ≤ 'F' then some (c.toNat - 'A'.toNat + 10)
  else none

/-- The number that a given count of hexadecimal digits at the start of a text says. -/
def hexNumber? (count : Nat) (t : Text) : Option Nat :=
  if t.length < count then none
  else (t.take count).foldlM (fun n c => (hexDigit? c).map (16 * n + ·)) 0

/-- The character with the given code point, unless that is a surrogate or out of range. -/
def charOfNat? (n : Nat) : Option Char := if n.isValidChar then some (Char.ofNat n) else none

/-- The word of a scalar in single quotes at the start of a text, and the text after it. -/
def singleWord : Text → Text × Text
  | [] => ([], [])
  | [c] => if isGap c || c = '\'' then ([], [c]) else ([c], [])
  | c :: d :: r =>
    if isGap c then ([], c :: d :: r)
    else if c = '\'' then
      if d = '\'' then let p := singleWord r; ('\'' :: p.1, p.2) else ([], c :: d :: r)
    else let p := singleWord (d :: r); (c :: p.1, p.2)

/-- The word of a scalar in double quotes at the start of a text, and the text after it. A word
ends in front of an escaped line end. -/
def doubleWord? (t : Text) : Option (Text × Text) :=
  match t with
  | [] => some ([], [])
  | c :: r =>
    if isGap c || c = '"' then some ([], c :: r)
    else if c = '\\' then
      match r with
      | [] => none
      | d :: r' =>
        if isBreak d then some ([], c :: d :: r')
        else match escapeLetters.lookup d with
          | some x => (doubleWord? r').map fun p => (x :: p.1, p.2)
          | none => do
            let count ← escapeDigits.lookup d
            let x ← charOfNat? (← hexNumber? count r')
            let p ← doubleWord? (r'.drop count)
            return (x :: p.1, p.2)
    else (doubleWord? r).map fun p => (c :: p.1, p.2)
termination_by t.length
decreasing_by all_goals simp only [List.length_cons, List.length_drop]; omega

/-- The word of a quoted scalar at the start of a text, and the text after it. -/
def quotedWord? (single : Bool) (t : Text) : Option (Text × Text) :=
  if single then some (singleWord t) else doubleWord? t

/-- The words of a quoted scalar from a place on, up to and including the quote that ends it. -/
def quotedWords? (single : Bool) : (fuel : Nat) → Cursor → Option (Text × Cursor)
  | 0, _ => none
  | fuel + 1, c =>
    if c.atDocumentEdge || c.rest.isEmpty then none
    else do
      let (word, rest) ← quotedWord? single c.rest
      let c' := c.moveTo rest
      let (start, c') :=
        if !single && c'.startsWith '\\' then ({ broken := true : Gap }, (c'.skip 1).lineEnd.2)
        else ({}, c')
      if c'.startsWith (if single then '\'' else '"') then return (word, c'.skip 1)
      let (gap, c'') ← Gap.ofCursor? none start c'
      let (more, last) ← quotedWords? single fuel c''
      return (word ++ gap.text ++ more, last)

/-! ### Blocks -/

/-- What becomes of the line ends at the end of a block. -/
inductive Chomp
  | strip
  | clip
  | keep
  deriving DecidableEq, Repr

/-- The marks behind the bar of a block: what becomes of its last line ends, and by how much it
is indented, which is zero if it is not told. -/
def blockMarks? (c : Cursor) : Option (Chomp × Nat × Cursor) :=
  let chomp? (c : Cursor) : Option Chomp :=
    if c.startsWith '+' then some .keep else if c.startsWith '-' then some .strip else none
  let digit? (c : Cursor) : Option Nat :=
    match c.rest with
    | d :: _ => if d.isDigit then some (d.toNat - '0'.toNat) else none
    | [] => none
  match chomp? c with
  | some chomp =>
    let c := c.skip 1
    match digit? c with
    | some 0 => none
    | some n => some (chomp, n, c.skip 1)
    | none => some (chomp, 0, c)
  | none =>
    match digit? c with
    | some 0 => none
    | some n =>
      let c := c.skip 1
      match chomp? c with
      | some chomp => some (chomp, n, c.skip 1)
      | none => some (.clip, n, c)
    | none => some (.clip, 0, c)

/-- The empty lines from a place on, and the indentation of the line after them. With an
indentation of zero all spaces indent, and the deepest line counts. A tab in the indentation is
refused. -/
def emptyLines? (indent : Nat) : (fuel : Nat) → Cursor → Option (Text × Nat × Cursor)
  | 0, _ => none
  | fuel + 1, c =>
    let spaces := (c.rest.takeWhile (· = ' ')).length
    let c := c.skip (if indent = 0 then spaces else min spaces (indent - c.column))
    if (indent = 0 ∨ c.column < indent) ∧ c.startsWith '\t' then none
    else if c.startsWithAny isBreak then do
      let (e, c') := c.lineEnd
      let (more, deepest, last) ← emptyLines? indent fuel c'
      return (e ++ more, max c.column deepest, last)
    else some ([], c.column, c)

/-- The lines of a block from a place on, after a line end and empty lines. The flag tells
whether the line before starts with a space. -/
def blockLines? (folded : Bool) (chomp : Chomp) (indent : Nat) : (fuel : Nat) →
    (afterBlank : Bool) → (first others : Text) → Cursor → Option (Text × Cursor)
  | 0, _, _, _, _ => none
  | fuel + 1, afterBlank, first, others, c =>
    if c.column = indent ∧ c.rest ≠ [] then do
      let blank := c.startsWithAny isSpacing
      let before :=
        if folded && first = ['\n'] && !afterBlank && !blank then foldBreaks first others
        else first ++ others
      let line := c.rest.takeWhile (!isBreak ·)
      let (e, c') := (c.skip line.length).lineEnd
      let (empty, _, c'') ← emptyLines? indent (c'.rest.length + 1) c'
      let (more, last) ← blockLines? folded chomp indent fuel blank e empty c''
      return (before ++ line ++ more, last)
    else
      let tail := match chomp with
        | .strip => []
        | .clip => first
        | .keep => first ++ others
      some (tail, c)

/-- The text of a block from its bar on. `indent` is the column of what the block stands in. -/
def blockScalar? (folded : Bool) (indent : Int) (c : Cursor) : Option (Text × Cursor) := do
  let (chomp, told, c) ← blockMarks? (c.skip 1)
  let c ← c.finishLine?
  let given := if told = 0 then 0 else (max indent 0).toNat + told
  let (others, deepest, c) ← emptyLines? given (c.rest.length + 1) c
  let column := if given = 0 then max deepest (max (indent + 1) 1).toNat else given
  blockLines? folded chomp column (c.rest.length + 1) false [] others c

end StyleSnippet.Yaml
