import StyleSnippet.Yaml.Value

/-!
# The kinds of settings

A setting is of one of nine types, and each type has fields of its own. The type is written out
by name; `SettingKind` holds the type together with its fields.
-/

set_option autoImplicit false

namespace StyleSnippet

/-- The types of settings. -/
inductive SettingType
  | heading
  | classToggle
  | classSelect
  | variableText
  | variableNumber
  | variableNumberSlider
  | variableSelect
  | variableColor
  | infoText
  deriving DecidableEq, Repr

namespace SettingType

/-- All types, in their usual order. -/
def all : List SettingType :=
  [heading, classToggle, classSelect, variableText, variableNumber, variableNumberSlider,
   variableSelect, variableColor, infoText]

/-- The name that a type is written by. -/
def name : SettingType → Text
  | heading => "heading"
  | classToggle => "class-toggle"
  | classSelect => "class-select"
  | variableText => "variable-text"
  | variableNumber => "variable-number"
  | variableNumberSlider => "variable-number-slider"
  | variableSelect => "variable-select"
  | variableColor => "variable-color"
  | infoText => "info-text"

/-- The type with the given name. -/
def ofName? (t : Text) : Option SettingType := all.find? fun ty => ty.name = t

/-- A type's name names that type. -/
theorem ofName?_name (ty : SettingType) : ofName? ty.name = some ty := by
  cases ty <;> decide

/-- Whether settings of a type drive a custom property. -/
def isVariable : SettingType → Bool
  | variableText | variableNumber | variableNumberSlider | variableSelect | variableColor => true
  | heading | classToggle | classSelect | infoText => false

end SettingType

/-- One option of a select setting. -/
inductive SelectOption
  /-- A value that is its own label. -/
  | plain (value : Text)
  | labeled (label value : Text)
  deriving DecidableEq, Repr

/-- The default and the bounds of a number. -/
structure NumberSpec where
  default : Option Number := none
  min : Option Number := none
  max : Option Number := none
  step : Option Number := none
  deriving DecidableEq, Repr

/-- The type of a setting and the fields of that type. -/
inductive SettingKind
  | heading (level : Fin 256) (collapsed : Option Bool)
  | classToggle (default addCommand : Option Bool)
  | classSelect (allowEmpty : Option Bool) (default : Option Text) (options : List SelectOption)
  | variableText (default : Option Text) (quotes : Option Bool)
  | variableNumber (spec : NumberSpec)
  | variableNumberSlider (spec : NumberSpec) (format : Option Text)
  | variableSelect (default : Option Text) (options : List SelectOption)
  | variableColor (default format : Option Text) (opacity : Option Bool)
  | infoText (markdown : Option Bool)
  deriving DecidableEq, Repr

namespace SettingKind

/-- The type of a kind. -/
def type : SettingKind → SettingType
  | heading .. => .heading
  | classToggle .. => .classToggle
  | classSelect .. => .classSelect
  | variableText .. => .variableText
  | variableNumber .. => .variableNumber
  | variableNumberSlider .. => .variableNumberSlider
  | variableSelect .. => .variableSelect
  | variableColor .. => .variableColor
  | infoText .. => .infoText

/-- The level of a new heading. -/
def newLevel : Fin 256 := 3

/-- The level of a heading that is read without one. -/
def plainLevel : Fin 256 := 1

/-- The fields that a new setting of a type starts with. -/
def initial : SettingType → SettingKind
  | .heading => heading newLevel none
  | .classToggle => classToggle none none
  | .classSelect => classSelect none none []
  | .variableText => variableText none none
  | .variableNumber => variableNumber { default := some (.int 0) }
  | .variableNumberSlider => variableNumberSlider {} none
  | .variableSelect => variableSelect none []
  | .variableColor => variableColor (some "#000000") (some "hex") none
  | .infoText => infoText none

end SettingKind

end StyleSnippet
