import StyleSnippet.Css.Scope
import StyleSnippet.Settings.Setting

/-!
# The settings of a snippet

A `Config` is what a snippet says: the fields of its settings block, the list of its settings,
and the CSS that belongs to no setting. It also remembers by which convention the snippet's body
is split among the settings.
-/

set_option autoImplicit false

namespace StyleSnippet

/-- How the pieces of CSS in a snippet's body are marked. -/
inductive BlockFormat
  /-- Between two comments, the first of which names the setting. -/
  | cell
  /-- Behind a title between two rows of asterisks. -/
  | asterisk
  deriving DecidableEq, Repr, Inhabited

/-- What a snippet says. -/
structure Config where
  name : Option Text := none
  /-- The namespace, whose class confines the snippet's CSS. -/
  id : Text
  settings : List Setting := []
  /-- The CSS that belongs to no setting. -/
  globalCss : Text := []
  /-- How the body that the config was read from is marked, if it was read from one. -/
  format : Option BlockFormat := none
  /-- The entries of the settings block that are not fields, in order. -/
  extra : Yaml.Entries := []
  deriving Repr

namespace Config

/-- What stands in for a snippet without a readable settings block. -/
def fallback : Config := { name := some "My Style Settings", id := "my-style-settings" }

/-- How the body is marked when the config is written. -/
def effectiveFormat (c : Config) : BlockFormat := c.format.getD .cell

/-- The class that confines to the snippet's namespace. -/
def scopeClass (c : Config) : Text := Css.scopeClass c.id

/-- All settings, depth first. -/
def allSettings (c : Config) : List Setting := (Setting.Visit.start c.settings).toList

/-- The first setting, depth first, with the given id. -/
def find? (c : Config) (id : Text) : Option Setting := c.allSettings.find? fun s => s.id = id

/-- Changes the first setting, depth first, with the given id; none if there is none. -/
def update? (c : Config) (id : Text) (change : Setting → Setting) : Option Config :=
  (Setting.updateFirstOf? (fun s => s.id = id) change c.settings).map fun settings =>
    { c with settings := settings }

end Config

end StyleSnippet
