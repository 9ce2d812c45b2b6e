import StyleSnippet.Number.Basic

/-!
# YAML values

A settings block is a YAML document, and a value is what such a document says: null, a boolean,
a number, a string, a list, a mapping whose entries keep their order, or a value with a local
tag. Two values are the same when they say the same; the order of the entries of a mapping then
does not count.
-/

set_option autoImplicit false

namespace StyleSnippet.Yaml

/-- A YAML value. A tag is kept without its exclamation mark. -/
inductive Value
  | null
  | bool (value : Bool)
  | number (value : Number)
  | string (value : Text)
  | list (items : List Value)
  | map (entries : List (Value × Value))
  | tagged (tag : Text) (value : Value)
  deriving Repr, Inhabited

/-- The entries of a mapping, in order. -/
abbrev Entries := List (Value × Value)

/-- A tag without the exclamation mark in front, if anything is left without it. -/
def bareTag : Text → Text
  | '!' :: c :: r => c :: r
  | t => t

namespace Value

mutual

/-- Whether two values say the same. -/
def same : Value → Value → Bool
  | .null, .null => true
  | .bool a, .bool b => a == b
  | .number a, .number b => a.same b
  | .string a, .string b => a == b
  | .list a, .list b => sameItems a b
  | .map a, .map b => a.length == b.length && within a b
  | .tagged s a, .tagged t b => bareTag s == bareTag t && same a b
  | _, _ => false

/-- Whether two lists say the same, item by item. -/
def sameItems : List Value → List Value → Bool
  | [], [] => true
  | a :: as, b :: bs => same a b && sameItems as bs
  | _, _ => false

/-- Whether each entry of the first mapping is the same as some entry of the second. -/
def within : List (Value × Value) → List (Value × Value) → Bool
  | [], _ => true
  | (k, v) :: rest, b => b.any (fun e => same k e.1 && same v e.2) && within rest b

end

/-- A value without its tags. -/
def untagged : Value → Value
  | .tagged _ v => untagged v
  | v => v

/-- The entries of a mapping, through tags. -/
def entries? (v : Value) : Option Entries :=
  match v.untagged with
  | .map entries => some entries
  | _ => none

/-- The text of a string, through tags. -/
def text? (v : Value) : Option Text :=
  match v.untagged with
  | .string s => some s
  | _ => none

end Value

namespace Entries

/-- The value under a string key. A tagged key is not a string key. -/
def get? (entries : Entries) (name : Text) : Option Value :=
  entries.findSome? fun e =>
    match e.1 with
    | .string s => if s = name then some e.2 else none
    | _ => none

/-- Whether a mapping has a key. -/
def hasKey (entries : Entries) (key : Value) : Bool := entries.any fun e => key.same e.1

/-- Puts a value under a key. A key that is there keeps its place and gets the value; a new key
goes to the end. -/
def insert (key value : Value) : Entries → Entries
  | [] => [(key, value)]
  | (k, v) :: rest => if key.same k then (k, value) :: rest else (k, v) :: insert key value rest

/-- Puts the entries of another mapping in, one after the other. -/
def insertAll (entries other : Entries) : Entries :=
  other.foldl (fun acc e => insert e.1 e.2 acc) entries

end Entries

end StyleSnippet.Yaml
