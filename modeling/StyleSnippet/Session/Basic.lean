import StyleSnippet.Document.Read
import StyleSnippet.Document.Write
import StyleSnippet.Session.Template
import StyleSnippet.Store.Name
import StyleSnippet.Store.Storage

/-!
# Editing a snippet

A session holds the text of one snippet while it is edited, by its config or as plain text. The
store is left alone until the text is saved. A snippet that is saved under another name than
before is deleted under the old name, once it is safe under the new one.
-/

set_option autoImplicit false

namespace StyleSnippet

/-- A snippet that is being edited, and the store that it is saved in. -/
structure Session (σ : Type) where
  store : σ
  /-- The name that the snippet is stored under, if it was stored. -/
  name : Option Text
  content : Text
  options : WriteOptions
  deriving Repr

/-- Why a session does not do what it was asked for. -/
inductive SessionError
  /-- The settings block of the text cannot be read, so it is not replaced. -/
  | read (error : ReadError)
  | write (error : WriteError)
  | store (error : StoreError)
  deriving DecidableEq, Repr

namespace Session

variable {σ : Type}

/-- A session for a snippet made from scratch. -/
def create (options : WriteOptions) (store : σ) : Session σ :=
  { store := store, name := none, content := defaultTemplate, options := options }

/-- A session for the snippet that is stored under a name. -/
def openStored [Storage σ] (options : WriteOptions) (name : Text) (store : σ) :
    Except StoreError (Session σ) :=
  (Storage.read name store).map fun content =>
    { store := store, name := some name, content := content, options := options }

/-- Replaces the text. -/
def setContent (content : Text) (s : Session σ) : Session σ := { s with content := content }

/-- The config of the text. A text without a readable settings block has the fallback config,
whose global CSS is the body. -/
def config (s : Session σ) : Config :=
  match Config.ofSnippet s.content with
  | .ok c => c
  | .error _ =>
    { Config.fallback with globalCss := Text.trim (SettingsBlock.bodyOf s.content) }

/-- Why the text must not be replaced, if it has a settings block that cannot be read. -/
def obstacle? (s : Session σ) : Option ReadError :=
  match Config.ofSnippet s.content with
  | .ok _ => none
  | .error e => if e.isMalformed then some e else none

/-- Puts a config in the place of the one that the text has, unless the text must not be
replaced. -/
def apply (c : Config) (s : Session σ) : Except SessionError Unit × Session σ :=
  match s.obstacle? with
  | some e => (.error (.read e), s)
  | none =>
    match c.updateSnippet s.options s.content with
    | .error e => (.error (.write e), s)
    | .ok content => (.ok (), { s with content := content })

/-- Deletes the snippet under the name that it had before, unless it still has that name. -/
def dropPrevious [Storage σ] (previous : Option Text) (name : Text) (store : σ) :
    Except StoreError Unit × σ :=
  match previous with
  | none => (.ok (), store)
  | some old => if old = name then (.ok (), store) else Storage.delete old store

/-- Saves the text under a name, to which the extension is added if it is missing, and tells the
name used. The snippet has the new name as soon as it is written. -/
def save [Storage σ] (name : Text) (s : Session σ) : Except StoreError Text × Session σ :=
  match snippetFileName name with
  | .error e => (.error e, s)
  | .ok name =>
    match Storage.write name s.content s.store with
    | (.error e, store) => (.error e, { s with store := store })
    | (.ok _, store) =>
      let (result, store) := dropPrevious s.name name store
      (result.map fun _ => name, { s with store := store, name := some name })

end Session

end StyleSnippet
