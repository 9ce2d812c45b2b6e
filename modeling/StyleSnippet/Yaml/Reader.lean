import StyleSnippet.Yaml.Node
import StyleSnippet.Yaml.Plain
import StyleSnippet.Yaml.Token.Lexer

/-!
# Reading YAML

A text is read as the value of its one document. What is refused: text that is no YAML 1.1, more
than one document, a mapping with the same key twice, collections nested more than 128 deep,
aliases that amount to more than a hundred times the document, and scalars that their tag does
not fit.
-/

set_option autoImplicit false

namespace StyleSnippet.Yaml

/-- The tags that force what a scalar says. -/
inductive CoreTag
  | bool | int | float | null
  deriving DecidableEq, Repr

namespace CoreTag

/-- The tag with the given full name. -/
def ofText? (t : Text) : Option CoreTag :=
  [(("tag:yaml.org,2002:bool" : Text), bool), ("tag:yaml.org,2002:int", int),
    ("tag:yaml.org,2002:float", float), ("tag:yaml.org,2002:null", null)].lookup t

/-- What a text says under a tag, if it fits. -/
def value? (t : Text) : CoreTag → Option Value
  | bool => (Plain.bool? t).map .bool
  | int =>
    match Plain.ofInteger? t with
    | some (.number n) => some (.number n)
    | _ => none
  | float => (Plain.float? t).map fun x => .number (.float x)
  | null => if t ∈ Plain.nullWords then some .null else none

end CoreTag

/-- The name of a local tag; none if a tag is not local. -/
def localTag? : Text → Option Text
  | ['!'] => some ['!']
  | '!' :: r => some r
  | _ => none

namespace Node

/-- What a plain scalar says; none if it says an integer that cannot be held. -/
def plainValue? (t : Text) : Option Value :=
  match Plain.ofText t with
  | .null => some .null
  | .bool b => some (.bool b)
  | .number n => some (.number n)
  | .beyondRange => none
  | .text => some (.string t)

/-- What a scalar says under a tag, or without one. A local tag lets a plain scalar say what it
says without a tag; under any other tag a scalar is a string. -/
def scalarValue? (tag : Option TagText) (plain : Bool) (t : Text) : Option Value :=
  match tag.bind fun tag => tag.text?.bind CoreTag.ofText? with
  | some core => core.value? t
  | none => if plain && tag.all (·.isLocal) then plainValue? t else some (.string t)

/-- Reads parts of a document. The number is how many more aliases may be followed. -/
abbrev Read := Node → Nat → Option (Value × Nat)

/-- The items of a list. -/
def itemValues? (read : Read) : List Node → Nat → Option (List Value × Nat)
  | [], left => some ([], left)
  | n :: rest, left => do
    let (v, left) ← read n left
    let (vs, left) ← itemValues? read rest left
    return (v :: vs, left)

/-- The entries of a mapping, after the given ones. -/
def entryValues? (read : Read) :
    (before : Entries) → List (Node × Node) → Nat → Option (Entries × Nat)
  | before, [], left => some (before, left)
  | before, (k, v) :: rest, left => do
    let (key, left) ← read k left
    if before.hasKey key then none
    let (value, left) ← read v left
    entryValues? read (before ++ [(key, value)]) rest left

/-- A value with the name of its tag, if the tag is local. -/
def withTag (tag : Option TagText) (v : Value) : Value :=
  match tag.bind fun tag => tag.text?.bind localTag? with
  | some name => .tagged name v
  | none => v

/-- What a part says that is no alias, with its items and entries read by the given function; a
collection is refused if there is none. -/
def partValue? (inner : Option Read) (node : Node) (left : Nat) : Option (Value × Nat) :=
  match node with
  | .alias _ => none
  | .scalar _ tag plain text => (scalarValue? tag plain text).map fun v => (withTag tag v, left)
  | .list _ tag items => do
    let (vs, left) ← itemValues? (← inner) items left
    return (withTag tag (.list vs), left)
  | .map _ tag entries => do
    let (es, left) ← entryValues? (← inner) [] entries left
    return (withTag tag (.map es), left)

/-- What a part says, where an alias says what the part with its anchor says. -/
def followed? (anchored : List (Nat × Node)) (inner : Option Read) : Read
  | .alias _, 0 => none
  | .alias number, left + 1 => do partValue? inner (← anchored.lookup number) left
  | node, left => partValue? inner node left

/-- What a part says. Collections may be nested `depth` deep. -/
def value? (anchored : List (Nat × Node)) : (depth : Nat) → Read
  | 0 => followed? anchored none
  | depth + 1 => followed? anchored (some (value? anchored depth))

end Node

/-- How deep collections may be nested. -/
def maxDepth : Nat := 128

/-- How many aliases may be followed, for every mark that a document amounts to. -/
def aliasesPerMark : Nat := 100

/-- The value that a text says, if it is YAML. A text without a document says null. -/
def read? (t : Text) : Option Value := do
  match ← Node.ofTokens? (← Token.ofText? t) with
  | none => return .null
  | some root =>
    let read := Node.value? root.anchored.reverse maxDepth
    let (v, _) ← read root (aliasesPerMark * root.size)
    return v

end StyleSnippet.Yaml
