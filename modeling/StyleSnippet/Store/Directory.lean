import StyleSnippet.Store.Name
import StyleSnippet.Store.Storage

/-!
# A directory of snippets

A store that is one directory, whose files are the snippets. The directory comes into being with
the first write. Only files with the store's extension are listed, but a file of any name can be
read and changed.

What stands in the way is modelled as far as it can be met: a directory that can never be there,
an entry that is a directory itself, a file that holds no text, and a name that is too long.
-/

set_option autoImplicit false

namespace StyleSnippet

/-- An entry of a directory. -/
inductive DirEntry
  /-- A file that holds text. -/
  | document (content : Text)
  /-- A file that holds something other than text. -/
  | binary
  /-- A directory, which may have entries of its own. -/
  | folder (isEmpty : Bool)
  deriving DecidableEq, Repr

namespace DirEntry

/-- Whether an entry is a file. -/
def isFile : DirEntry → Bool
  | document _ | binary => true
  | folder _ => false

/-- Whether an entry can be moved over another one: a file over a file, a directory over an empty
directory. -/
def canReplace : (new old : DirEntry) → Bool
  | folder _, folder isEmpty => isEmpty
  | new, old => new.isFile && old.isFile

end DirEntry

/-- The entries of a directory by name. A name occurs once. -/
abbrev DirEntries := List (Text × DirEntry)

namespace DirEntries

/-- The entry with a name. -/
def get? (es : DirEntries) (name : Text) : Option DirEntry := es.lookup name

/-- The entries without the one with a name. -/
def erase (es : DirEntries) (name : Text) : DirEntries := es.filter fun e => e.1 ≠ name

/-- The entries with an entry put under a name. -/
def put (es : DirEntries) (name : Text) (entry : DirEntry) : DirEntries :=
  (name, entry) :: es.erase name

/-- The entries with the one under a name moved to another name. -/
def move (es : DirEntries) (source target : Text) (entry : DirEntry) : DirEntries :=
  ((es.erase source).put target entry)

/-- Whether one name comes before another, or is the same: names are in the order of their code
points. -/
def nameLe : Text → Text → Bool
  | [], _ => true
  | _ :: _, [] => false
  | c :: r, d :: s => c < d || (c = d && nameLe r s)

/-- The sorted names of the files with an extension. -/
def files (es : DirEntries) (extension : Text) : List Text :=
  ((es.filter fun e => e.2.isFile && Text.endsWith extension e.1).map Prod.fst).mergeSort nameLe

end DirEntries

/-- What is found where a store has its directory. -/
inductive DirState
  /-- Nothing, but the directory can be made. -/
  | missing
  /-- Nothing, and the directory cannot be made. An attempt to make it gets some of the way, after
  which the directory is blocked. -/
  | unmakeable
  /-- Something that bars the way to the directory. -/
  | blocked
  /-- The directory. -/
  | entries (es : DirEntries)
  deriving DecidableEq, Repr

/-- A store that is a directory. -/
structure Directory where
  state : DirState := .missing
  /-- The ending of the names that are listed. -/
  extension : Text := snippetExtension
  /-- How often the store has changed, which is how often snippets have to be applied anew. -/
  reloads : Nat := 0
  deriving DecidableEq, Repr

namespace Directory

/-- The most bytes that the name of a file can have. -/
def maxNameLength : Nat := 255

/-- Whether a name is too long for a file. -/
def isTooLong (name : Text) : Bool := maxNameLength < Text.utf8Length name

/-- The most bytes that a path can have. -/
def maxPathLength : Nat := 4095

/-- Whether a name is too long for a path, so that it is not even looked up where the directory is
missing. -/
def exceedsPath (name : Text) : Bool := maxPathLength < Text.utf8Length name

/-- The directory with other entries, after a change. -/
def changed (d : Directory) (es : DirEntries) : Directory :=
  { d with state := .entries es, reloads := d.reloads + 1 }

/-- The sorted names of the listed files. -/
def list (d : Directory) : Except StoreError (List Text) :=
  match d.state with
  | .missing | .unmakeable => .ok []
  | .blocked => .error .io
  | .entries es => .ok (es.files d.extension)

/-- The text of a file. -/
def read (name : Text) (d : Directory) : Except StoreError Text := do
  let name ← plainName name
  match d.state with
  | .missing | .unmakeable => if exceedsPath name then throw .io else return []
  | .blocked => throw .io
  | .entries es =>
    if isTooLong name then throw .io
    else match es.get? name with
      | none => return []
      | some (.document content) => return content
      | some _ => throw .io

/-- Writes a file among the given entries. -/
def writeIn (name content : Text) (d : Directory) (es : DirEntries) :
    Except StoreError Unit × Directory :=
  let made := { d with state := .entries es }
  if isTooLong name || (es.get? name).any (fun e => !e.isFile) then (.error .io, made)
  else (.ok (), d.changed (es.put name (.document content)))

/-- Writes a file. -/
def write (name content : Text) (d : Directory) : Except StoreError Unit × Directory :=
  match plainName name with
  | .error e => (.error e, d)
  | .ok name =>
    match d.state with
    | .missing => writeIn name content d []
    | .unmakeable => (.error .io, { d with state := .blocked })
    | .blocked => (.error .io, d)
    | .entries es => writeIn name content d es

/-- Removes a file. -/
def delete (name : Text) (d : Directory) : Except StoreError Unit × Directory :=
  match plainName name with
  | .error e => (.error e, d)
  | .ok name =>
    match d.state with
    | .missing | .unmakeable => if exceedsPath name then (.error .io, d) else (.ok (), d)
    | .blocked => (.error .io, d)
    | .entries es =>
      if isTooLong name then (.error .io, d)
      else match es.get? name with
        | none => (.ok (), d)
        | some e => if e.isFile then (.ok (), d.changed (es.erase name)) else (.error .io, d)

/-- Moves an entry of the given ones to a name. -/
def renameIn (source target : Text) (entry : DirEntry) (d : Directory) (es : DirEntries) :
    Except StoreError Unit × Directory :=
  if isTooLong target then (.error .io, d)
  -- The entry stays where it is, and the store counts as changed all the same.
  else if source = target then (.ok (), d.changed es)
  else if (es.get? target).all entry.canReplace then
    (.ok (), d.changed (es.move source target entry))
  else (.error .io, d)

/-- Gives an entry another name. An entry that cannot be looked up counts as not there. -/
def rename (source target : Text) (d : Directory) : Except StoreError Unit × Directory :=
  match plainName source, plainName target with
  | .error e, _ => (.error e, d)
  | .ok _, .error e => (.error e, d)
  | .ok source, .ok target =>
    match d.state with
    | .missing | .unmakeable | .blocked => (.ok (), d)
    | .entries es =>
      match es.get? source with
      | none => (.ok (), d)
      | some entry => renameIn source target entry d es

/-- A directory stores snippets. -/
instance : Storage Directory := ⟨list, read, write, delete, rename⟩

end Directory

end StyleSnippet
