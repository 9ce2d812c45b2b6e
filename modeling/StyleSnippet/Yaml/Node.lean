import StyleSnippet.Yaml.Token.Basic

/-!
# The tree of a YAML document

The tokens of a document form a tree of scalars, lists and mappings, in which aliases still
stand for what they mean. Every function here takes the tokens from some place on and answers
with the tokens after what it read. The depth of the calls is bounded by the number of tokens.
-/

set_option autoImplicit false

namespace StyleSnippet.Yaml

/-- A part of a document. -/
inductive Node
  | alias (number : Nat)
  | scalar (anchor : Option Nat) (tag : Option TagText) (plain : Bool) (text : Text)
  | list (anchor : Option Nat) (tag : Option TagText) (items : List Node)
  | map (anchor : Option Nat) (tag : Option TagText) (entries : List (Node × Node))
  deriving Repr

namespace Node

/-- Nothing, where a part is expected. -/
def empty : Node := .scalar none none true []

mutual

/-- The number of marks that a part amounts to: one for a scalar or alias, and one for either
end of a collection. -/
def size : Node → Nat
  | .alias _ => 1
  | .scalar .. => 1
  | .list _ _ items => 2 + itemsSize items
  | .map _ _ entries => 2 + entriesSize entries

/-- The number of marks that the items of a list amount to. -/
def itemsSize : List Node → Nat
  | [] => 0
  | n :: rest => size n + itemsSize rest

/-- The number of marks that the entries of a mapping amount to. -/
def entriesSize : List (Node × Node) → Nat
  | [] => 0
  | (k, v) :: rest => size k + size v + entriesSize rest

end

mutual

/-- The parts that have an anchor, in the order in which they start. -/
def anchored : Node → List (Nat × Node)
  | .alias _ => []
  | .scalar a t p s => (a.map fun n => (n, Node.scalar a t p s)).toList
  | .list a t items => (a.map fun n => (n, Node.list a t items)).toList ++ itemsAnchored items
  | .map a t entries =>
    (a.map fun n => (n, Node.map a t entries)).toList ++ entriesAnchored entries

/-- The items that have an anchor, and those inside of items. -/
def itemsAnchored : List Node → List (Nat × Node)
  | [] => []
  | n :: rest => anchored n ++ itemsAnchored rest

/-- The keys and values that have an anchor, and those inside of them. -/
def entriesAnchored : List (Node × Node) → List (Nat × Node)
  | [] => []
  | (k, v) :: rest => anchored k ++ anchored v ++ entriesAnchored rest

end

/-! ### From tokens to a tree -/

/-- What the tag handles of a document stand for. -/
abbrev Handles := List (Text × TagText)

/-- A tag without its handle; none if nothing tells what the handle stands for. -/
def tag? (handles : Handles) (handle : Text) (suffix : TagText) : Option TagText :=
  if handle.isEmpty then some suffix else (handles.lookup handle).map (· ++ suffix)

/-- The anchor and the tag in front of a part, in either order. -/
def properties? (handles : Handles) :
    List Token → Option (Option Nat × Option TagText × List Token)
  | .anchor a :: .tag h s :: r => (tag? handles h s).map fun t => (some a, some t, r)
  | .anchor a :: r => some (some a, none, r)
  | .tag h s :: .anchor a :: r => (tag? handles h s).map fun t => (some a, some t, r)
  | .tag h s :: r => (tag? handles h s).map fun t => (none, some t, r)
  | r => some (none, none, r)

mutual

/-- A part. `block` lets collections told by indentation in, and `loose` lists that are not
indented deeper than the mapping around them. -/
def part? (handles : Handles) (block loose : Bool) : (fuel : Nat) → List Token →
    Option (Node × List Token)
  | 0, _ => none
  | _ + 1, .alias n :: r => some (.alias n, r)
  | fuel + 1, ts => do
    let (anchor, tag, ts) ← properties? handles ts
    match ts with
    | .scalar plain text :: r => return (.scalar anchor tag plain text, r)
    | .openList :: r =>
      let (items, r) ← flowItems? handles true fuel r
      return (.list anchor tag items, r)
    | .openMap :: r =>
      let (entries, r) ← flowEntries? handles true fuel r
      return (.map anchor tag entries, r)
    | t :: r =>
      if loose && t = .dash then
        let (items, r) ← looseItems? handles fuel (t :: r)
        return (.list anchor tag items, r)
      else if block && t = .listStart then
        let (items, r) ← blockItems? handles fuel r
        return (.list anchor tag items, r)
      else if block && t = .mapStart then
        let (entries, r) ← blockEntries? handles fuel r
        return (.map anchor tag entries, r)
      -- An anchor or a tag in front of nothing belongs to an empty scalar.
      else if anchor.isSome || tag.isSome then
        return (.scalar anchor tag true [], t :: r)
      else none
    | [] => if anchor.isSome || tag.isSome then return (.scalar anchor tag true [], []) else none

/-- A part, or nothing in front of one of the given tokens. -/
def partBefore? (handles : Handles) (block loose : Bool) (ends : List Token) : (fuel : Nat) →
    List Token → Option (Node × List Token)
  | 0, _ => none
  | fuel + 1, ts =>
    if ts.head?.any (· ∈ ends) then some (empty, ts) else part? handles block loose fuel ts

/-- The items of a list told by indentation. -/
def blockItems? (handles : Handles) : (fuel : Nat) → List Token →
    Option (List Node × List Token)
  | 0, _ => none
  | fuel + 1, .dash :: r => do
    let (item, r) ← partBefore? handles true false [.dash, .blockEnd] fuel r
    let (items, r) ← blockItems? handles fuel r
    return (item :: items, r)
  | _ + 1, .blockEnd :: r => some ([], r)
  | _ + 1, _ => none

/-- The items of a list that is not indented deeper than the mapping around it. -/
def looseItems? (handles : Handles) : (fuel : Nat) → List Token →
    Option (List Node × List Token)
  | 0, _ => none
  | fuel + 1, .dash :: r => do
    let (item, r) ← partBefore? handles true false [.dash, .key, .value, .blockEnd] fuel r
    let (items, r) ← looseItems? handles fuel r
    return (item :: items, r)
  | _ + 1, r => some ([], r)

/-- The entries of a mapping told by indentation. -/
def blockEntries? (handles : Handles) : (fuel : Nat) → List Token →
    Option (List (Node × Node) × List Token)
  | 0, _ => none
  | fuel + 1, .key :: r => do
    let ends := [.key, .value, .blockEnd]
    let (key, r) ← partBefore? handles true true ends fuel r
    let (value, r) ← match r with
      | .value :: r => partBefore? handles true true ends fuel r
      | _ => some (empty, r)
    let (entries, r) ← blockEntries? handles fuel r
    return ((key, value) :: entries, r)
  | _ + 1, .blockEnd :: r => some ([], r)
  | _ + 1, _ => none

/-- The value of a key between brackets, which `close` ends. -/
def flowValue? (handles : Handles) (close : Token) : (fuel : Nat) → List Token →
    Option (Node × List Token)
  | 0, _ => none
  | fuel + 1, .value :: r => partBefore? handles false false [.comma, close] fuel r
  | _ + 1, r => some (empty, r)

/-- The items between square brackets. A key stands for a mapping of its own; where it is
missing, the token after its mark is passed over. -/
def flowItems? (handles : Handles) (first : Bool) : (fuel : Nat) → List Token →
    Option (List Node × List Token)
  | 0, _ => none
  | _ + 1, .closeList :: r => some ([], r)
  | fuel + 1, ts => do
    let ts ← if first then some ts else match ts with
      | .comma :: r => some r
      | _ => none
    match ts with
    | .closeList :: r => return ([], r)
    | .key :: r =>
      let ends := [.value, .comma, .closeList]
      let (key, r) ← partBefore? handles false false ends fuel r
      let r := if ts.tail.head?.any (· ∈ ends) then r.tail else r
      let (value, r) ← flowValue? handles .closeList fuel r
      let (items, r) ← flowItems? handles false fuel r
      return (.map none none [(key, value)] :: items, r)
    | _ =>
      let (item, r) ← part? handles false false fuel ts
      let (items, r) ← flowItems? handles false fuel r
      return (item :: items, r)

/-- The entries between curly brackets. -/
def flowEntries? (handles : Handles) (first : Bool) : (fuel : Nat) → List Token →
    Option (List (Node × Node) × List Token)
  | 0, _ => none
  | _ + 1, .closeMap :: r => some ([], r)
  | fuel + 1, ts => do
    let ts ← if first then some ts else match ts with
      | .comma :: r => some r
      | _ => none
    match ts with
    | .closeMap :: r => return ([], r)
    | .key :: r =>
      let (key, r) ← partBefore? handles false false [.value, .comma, .closeMap] fuel r
      let (value, r) ← flowValue? handles .closeMap fuel r
      let (entries, r) ← flowEntries? handles false fuel r
      return ((key, value) :: entries, r)
    | _ =>
      let (key, r) ← part? handles false false fuel ts
      let (entries, r) ← flowEntries? handles false fuel r
      return ((key, empty) :: entries, r)

end

/-! ### Documents -/

/-- The handles that need no directive. -/
def standardHandles : Handles :=
  [("!", TagText.ofText "!"), ("!!", TagText.ofText "tag:yaml.org,2002:")]

/-- The directives in front of a document: the handles that they tell. The version may be told
once, as 1.1 or 1.2, and every handle once. -/
def directives? (versionTold : Bool) (handles : Handles) :
    List Token → Option (Handles × List Token)
  | .version major minor :: r =>
    if !versionTold && major = 1 && (minor = 1 || minor = 2) then directives? true handles r
    else none
  | .tagHandle handle meaning :: r =>
    if (handles.lookup handle).isSome then none
    else directives? versionTold (handles ++ [(handle, meaning)]) r
  | r => some (handles, r)

/-- Whether a token stands in front of a document. -/
def startsDocument : Token → Bool
  | .version .. | .tagHandle .. | .documentStart => true
  | _ => false

/-- The tree of the one document that the tokens make up; none inside if they make up no
document at all. -/
def ofTokens? (ts : List Token) : Option (Option Node) :=
  let fuel := 4 * ts.length + 4
  match ts with
  | [] => some none
  | t :: _ => do
    let (root, r) ←
      if startsDocument t then do
        let (handles, r) ← directives? false [] ts
        match r with
        | .documentStart :: r =>
          if r.head?.all (fun t => startsDocument t || t = .documentEnd) then some (empty, r)
          else part? (handles ++ standardHandles) true false fuel r
        | _ => none
      else part? standardHandles true false fuel ts
    if r.all (· = .documentEnd) then return some root else none

end Node

end StyleSnippet.Yaml
