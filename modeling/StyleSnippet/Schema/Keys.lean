import StyleSnippet.Settings.Kind

/-!
# The keys of a settings block

Which keys of a mapping are fields depends on where the mapping stands: the root, a setting of a
given type, a labeled option. All other keys are kept as they are.
-/

set_option autoImplicit false

namespace StyleSnippet.Schema

/-- The keys of the root that are fields. -/
def rootKeys : List Text := ["name", "id", "settings"]

/-- The keys of a setting that are fields whatever its type. -/
def commonKeys : List Text := ["id", "title", "description", "type", "css", "settings"]

/-- The keys of a setting that are fields of its type. -/
def kindKeys : SettingType → List Text
  | .heading => ["level", "collapsed"]
  | .classToggle => ["default", "addCommand"]
  | .classSelect => ["allowEmpty", "default", "options"]
  | .variableText => ["default", "quotes"]
  | .variableNumber => ["default", "min", "max", "step"]
  | .variableNumberSlider => ["default", "min", "max", "step", "format"]
  | .variableSelect => ["default", "options"]
  | .variableColor => ["default", "format", "opacity"]
  | .infoText => ["markdown"]

/-- The entries whose key is, through tags, none of the given fields. -/
def extraEntries (fields : List Text) (entries : Yaml.Entries) : Yaml.Entries :=
  entries.filter fun e =>
    match e.1.text? with
    | some key => key ∉ fields
    | none => true

end StyleSnippet.Schema
