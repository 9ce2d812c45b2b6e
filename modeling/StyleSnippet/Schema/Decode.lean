import StyleSnippet.Schema.Error
import StyleSnippet.Schema.Keys
import StyleSnippet.Settings.Config

/-!
# Reading a settings block

A value is read as a settings block field by field. The first culprit in reading order is
reported. A field that is null counts as absent, and where a string is expected a number or a
boolean is taken by its text.
-/

set_option autoImplicit false

namespace StyleSnippet.Schema

/-- The entries of a mapping and the path to it. -/
structure Fields where
  entries : Yaml.Entries
  path : Path

/-- The text of a scalar that can stand for a string. -/
def scalarText? : Yaml.Value → Option Text
  | .string s => some s
  | .number n => some n.text
  | .bool b => some (if b then "true" else "false")
  | _ => none

/-- A mismatch at a place. -/
def mismatch (path : Path) (expected : Expected) (found : Yaml.Value) : Error :=
  { path := path, problem := .mismatch expected found.shape }

namespace Fields

/-- The path to the value under a key. -/
def pathTo (f : Fields) (key : Text) : Path := f.path ++ [.field key]

/-- The value under a key, unless it is null. -/
def get? (f : Fields) (key : Text) : Option Yaml.Value :=
  match f.entries.get? key with
  | some .null => none
  | v => v

/-- Reads an optional field by a function that may refuse its value. -/
def read {α : Type} (f : Fields) (key : Text) (expected : Expected)
    (value? : Yaml.Value → Option α) : Except Error (Option α) :=
  match f.get? key with
  | none => .ok none
  | some v =>
    match value? v with
    | some a => .ok (some a)
    | none => .error (mismatch (f.pathTo key) expected v)

/-- An optional string. -/
def string (f : Fields) (key : Text) : Except Error (Option Text) :=
  f.read key .string scalarText?

/-- A string that has to be there. -/
def requiredString (f : Fields) (key : Text) : Except Error Text := do
  match ← f.string key with
  | some s => return s
  | none => throw { path := f.pathTo key, problem := .missingField }

/-- An optional boolean. -/
def bool (f : Fields) (key : Text) : Except Error (Option Bool) :=
  f.read key .boolean fun
    | .bool b => some b
    | _ => none

/-- An optional number. -/
def number (f : Fields) (key : Text) : Except Error (Option Number) :=
  f.read key .number fun
    | .number n => some n
    | _ => none

/-- A level that is accepted fits into eight bits. -/
theorem level_lt {i : Int} (h : 0 ≤ i ∧ i < 256) : i.toNat < 256 := by omega

/-- The level of a heading that a number says. -/
def level? : Number → Option (Fin 256)
  | .int i => if h : 0 ≤ i ∧ i < 256 then some ⟨i.toNat, level_lt h⟩ else none
  | .float _ => none

/-- An optional level of a heading. -/
def level (f : Fields) (key : Text) : Except Error (Option (Fin 256)) := do
  match ← f.number key with
  | none => return none
  | some n =>
    match level? n with
    | some l => return some l
    | none => throw { path := f.pathTo key, problem := .levelOutOfRange n }

/-- The default and the bounds of a number. -/
def numberSpec (f : Fields) : Except Error NumberSpec := do
  return {
    default := ← f.number "default"
    min := ← f.number "min"
    max := ← f.number "max"
    step := ← f.number "step" }

end Fields

/-- One option of a select setting. -/
def decodeOption (path : Path) (v : Yaml.Value) : Except Error SelectOption :=
  match scalarText? v with
  | some text => .ok (.plain text)
  | none =>
    match v.entries? with
    | none => .error (mismatch path .selectOption v)
    | some entries => do
      let fields : Fields := ⟨entries, path⟩
      let value ← fields.requiredString "value"
      let label ← fields.string "label"
      return .labeled (label.getD value) value

/-- The items of a list, each at its position. -/
def decodeOptions (path : Path) : (index : Nat) → List Yaml.Value →
    Except Error (List SelectOption)
  | _, [] => .ok []
  | i, v :: rest => do
    let option ← decodeOption (path ++ [.item i]) v
    return option :: (← decodeOptions path (i + 1) rest)

/-- The options of a select setting. -/
def Fields.options (f : Fields) (key : Text) : Except Error (List SelectOption) :=
  match f.get? key with
  | none => .ok []
  | some (.list items) => decodeOptions (f.pathTo key) 0 items
  | some v => .error (mismatch (f.pathTo key) .list v)

/-- The type of a setting. -/
def Fields.type (f : Fields) : Except Error SettingType := do
  let name ← f.requiredString "type"
  match SettingType.ofName? name with
  | some ty => return ty
  | none => throw { path := f.pathTo "type", problem := .unknownType name }

/-- The fields of a setting of the given type. -/
def Fields.kind (f : Fields) : SettingType → Except Error SettingKind
  | .heading => do
    return .heading ((← f.level "level").getD SettingKind.plainLevel) (← f.bool "collapsed")
  | .classToggle => do return .classToggle (← f.bool "default") (← f.bool "addCommand")
  | .classSelect => do
    return .classSelect (← f.bool "allowEmpty") (← f.string "default") (← f.options "options")
  | .variableText => do return .variableText (← f.string "default") (← f.bool "quotes")
  | .variableNumber => do return .variableNumber (← f.numberSpec)
  | .variableNumberSlider => do
    return .variableNumberSlider (← f.numberSpec) (← f.string "format")
  | .variableSelect => do return .variableSelect (← f.string "default") (← f.options "options")
  | .variableColor => do
    return .variableColor (← f.string "default") (← f.string "format") (← f.bool "opacity")
  | .infoText => do return .infoText (← f.bool "markdown")

mutual

/-- A setting, from a value of which the given kind is reported if it is no mapping. -/
def decodeSetting (path : Path) (found : Shape) : Yaml.Value → Except Error Setting
  | .tagged _ v => decodeSetting path found v
  | .map entries => do
    let fields : Fields := ⟨entries, path⟩
    let type ← fields.type
    let kind ← fields.kind type
    return {
      id := ← fields.requiredString "id"
      title := (← fields.string "title").getD []
      description := ← fields.string "description"
      kind := kind
      css := ← fields.string "css"
      nested := ← decodeNested path entries
      extra := extraEntries (commonKeys ++ kindKeys type) entries }
  | _ => .error { path := path, problem := .mismatch .mapping found }

/-- The settings under the key `settings` of a mapping. -/
def decodeNested (path : Path) : List (Yaml.Value × Yaml.Value) → Except Error (List Setting)
  | [] => .ok []
  | (key, value) :: rest =>
    match key with
    | .string name =>
      if name = "settings".toList then decodeSettings (path ++ [.field name]) value
      else decodeNested path rest
    | _ => decodeNested path rest

/-- A list of settings, or nothing. -/
def decodeSettings (path : Path) : Yaml.Value → Except Error (List Setting)
  | .null => .ok []
  | .list items => decodeItems path 0 items
  | v => .error (mismatch path .list v)

/-- The settings of a list, each at its position. -/
def decodeItems (path : Path) : (index : Nat) → List Yaml.Value → Except Error (List Setting)
  | _, [] => .ok []
  | i, v :: rest => do
    let setting ← decodeSetting (path ++ [.item i]) v.shape v
    return setting :: (← decodeItems path (i + 1) rest)

end

/-- A settings block, from the value that it says. -/
def decode (v : Yaml.Value) : Except Error Config :=
  match v.entries? with
  | none => .error (mismatch [] .mapping v)
  | some entries => do
    let fields : Fields := ⟨entries, []⟩
    return {
      name := ← fields.string "name"
      id := ← fields.requiredString "id"
      settings := ← decodeNested [] entries
      extra := extraEntries rootKeys entries }

end StyleSnippet.Schema
