import StyleSnippet.Css.Layout
import StyleSnippet.Css.Scope
import StyleSnippet.Document.Banner
import StyleSnippet.Document.Cell
import StyleSnippet.Document.Error
import StyleSnippet.Document.SettingsBlock
import StyleSnippet.Schema.Encode
import StyleSnippet.Settings.Config
import StyleSnippet.Yaml.Writer

/-!
# Writing a snippet

A config is written as its settings block and, after a blank line, its body: the global CSS and
then the CSS of each setting, depth first, confined to a class, indented and marked by the
config's convention. Blank lines part the pieces.
-/

set_option autoImplicit false

namespace StyleSnippet

/-- Whose class confines the CSS in a cell. -/
inductive CellScope
  /-- The snippet's namespace. -/
  | config
  /-- The setting that owns the cell. -/
  | setting
  deriving DecidableEq, Repr

/-- How a snippet is written. -/
structure WriteOptions where
  cellScope : CellScope := .config
  /-- The number of asterisks in a row of a banner. A row never has too few to be read back. -/
  rowStars : Nat := 36
  deriving DecidableEq, Repr

namespace Config

/-- The settings block of a config. -/
def settingsBlock (c : Config) : Except WriteError Text :=
  match Yaml.write? (Schema.encode c) with
  | none => .error .noYaml
  | some yaml =>
    if Text.contains SettingsBlock.closing yaml then .error .commentEnd
    else .ok (SettingsBlock.opening ++ '\n' ::
      (Text.trimEnd yaml ++ '\n' :: SettingsBlock.closing))

/-- The class that confines the CSS of a setting. Behind a banner it is the setting's own, since
that is what makes the CSS the setting's. -/
def classOf (o : WriteOptions) (c : Config) (s : Setting) : Text :=
  match c.effectiveFormat, o.cellScope with
  | .cell, .config => c.scopeClass
  | .cell, .setting => Css.scopeClass s.id
  | .asterisk, _ => Css.scopeClass s.id

/-- The CSS of a setting, confined and indented, between its marks. -/
def fragment (o : WriteOptions) (c : Config) (s : Setting) (css : Text) : Text :=
  let css := Css.formatBlock (Css.scopeCss (c.classOf o s) css)
  match c.effectiveFormat with
  | .cell => Cell.render s.id css
  | .asterisk => Banner.render o.rowStars s.displayTitle css

/-- The global CSS of a config, indented, unless it is blank. -/
def globalPart (c : Config) : List Text :=
  let css := Text.trim c.globalCss
  if css.isEmpty then [] else [Css.formatBlock css]

/-- The pieces of a config's body. -/
def bodyParts (o : WriteOptions) (c : Config) : List Text :=
  c.globalPart ++ c.allSettings.filterMap fun s => s.fragment?.map (c.fragment o s)

/-- The body of a config. -/
def body (o : WriteOptions) (c : Config) : Text :=
  List.intercalate "\n\n".toList (c.bodyParts o)

/-- The text of a snippet with the given settings block and body. -/
def snippetText (block body : Text) : Text :=
  if body.isEmpty then block ++ ['\n'] else block ++ "\n\n" ++ body ++ ['\n']

/-- The text of a snippet with the given config. -/
def toSnippet (o : WriteOptions) (c : Config) : Except WriteError Text :=
  c.settingsBlock.map fun block => snippetText block (c.body o)

/-- The text of a snippet with another config in the place of its own. Text in front of the old
settings block is kept. -/
def updateSnippet (o : WriteOptions) (old : Text) (c : Config) : Except WriteError Text :=
  (c.toSnippet o).map fun new =>
    match SettingsBlock.find? old with
    | some b => if b.before.isEmpty then new else Text.trimEnd b.before ++ "\n\n" ++ new
    | none => new

end Config

/-- A text with every selector behind its settings block confined to a namespace. -/
def scopeDocument (id t : Text) : Text :=
  match SettingsBlock.find? t with
  | some b => b.before ++ b.written ++ Css.scopeCss (Css.scopeClass id) b.after
  | none => Css.scopeCss (Css.scopeClass id) t

end StyleSnippet
