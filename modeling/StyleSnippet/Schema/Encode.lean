import StyleSnippet.Schema.Keys
import StyleSnippet.Settings.Config

/-!
# Writing a settings block

A config is written as a mapping with its fields first, in a fixed order, then the entries that
are not fields, then its settings. The CSS of the snippet is not part of the settings block.
-/

set_option autoImplicit false

namespace StyleSnippet.Schema

/-- An entry with a string key. -/
def entry (key : Text) (value : Yaml.Value) : Yaml.Value × Yaml.Value := (.string key, value)

/-- The entry of an optional field, if it is there. -/
def optional {α : Type} (key : Text) (value : α → Yaml.Value) : Option α → Yaml.Entries
  | none => []
  | some a => [entry key (value a)]

/-- One option of a select setting. -/
def encodeOption : SelectOption → Yaml.Value
  | .plain value => .string value
  | .labeled label value => .map [entry "label" (.string label), entry "value" (.string value)]

/-- The options of a select setting. -/
def encodeOptions (options : List SelectOption) : Yaml.Value := .list (options.map encodeOption)

/-- The default and the bounds of a number. -/
def encodeNumberSpec (spec : NumberSpec) : Yaml.Entries :=
  optional "default" .number spec.default ++ optional "min" .number spec.min ++
    optional "max" .number spec.max ++ optional "step" .number spec.step

/-- The fields of a kind. -/
def encodeKind : SettingKind → Yaml.Entries
  | .heading level collapsed =>
    entry "level" (.number (.int level.val)) :: optional "collapsed" .bool collapsed
  | .classToggle default addCommand =>
    optional "default" .bool default ++ optional "addCommand" .bool addCommand
  | .classSelect allowEmpty default options =>
    optional "allowEmpty" .bool allowEmpty ++ optional "default" .string default ++
      [entry "options" (encodeOptions options)]
  | .variableText default quotes =>
    optional "default" .string default ++ optional "quotes" .bool quotes
  | .variableNumber spec => encodeNumberSpec spec
  | .variableNumberSlider spec format => encodeNumberSpec spec ++ optional "format" .string format
  | .variableSelect default options =>
    optional "default" .string default ++ [entry "options" (encodeOptions options)]
  | .variableColor default format opacity =>
    optional "default" .string default ++ optional "format" .string format ++
      optional "opacity" .bool opacity
  | .infoText markdown => optional "markdown" .bool markdown

/-- The fields of a setting, nested settings aside. -/
def encodeFields (id title : Text) (description : Option Text) (kind : SettingKind) :
    Yaml.Entries :=
  [entry "id" (.string id), entry "title" (.string title)] ++
    optional "description" .string description ++
    [entry "type" (.string kind.type.name)] ++ encodeKind kind

mutual

/-- A setting. The key `settings` is written only if there are nested settings. -/
def encodeSetting : Setting → Yaml.Value
  | ⟨id, title, description, kind, _, nested, extra⟩ =>
    let entries := (encodeFields id title description kind).insertAll extra
    .map (match nested with
      | [] => entries
      | s :: rest => entries.insert (.string "settings") (.list (encodeSettings (s :: rest))))

/-- A list of settings. -/
def encodeSettings : List Setting → List Yaml.Value
  | [] => []
  | s :: rest => encodeSetting s :: encodeSettings rest

end

/-- The value that a config's settings block says. -/
def encode (c : Config) : Yaml.Value :=
  let fields := optional "name" .string c.name ++ [entry "id" (.string c.id)]
  .map ((Yaml.Entries.insertAll fields c.extra).insert (.string "settings")
    (.list (encodeSettings c.settings)))

end StyleSnippet.Schema
