import StyleSnippet.Settings.Config

/-!
# When two configs say the same

Configs are compared field by field. Numbers and the entries outside the schema are compared as
values, so the order of a mapping's entries does not count, and neither does the sign of a zero.
-/

set_option autoImplicit false

namespace StyleSnippet

/-- Whether two optional numbers have the same value. -/
def sameNumber : Option Number → Option Number → Bool
  | none, none => true
  | some a, some b => a.same b
  | _, _ => false

/-- Whether two numeric fields have the same values. -/
def NumberSpec.same (a b : NumberSpec) : Bool :=
  sameNumber a.default b.default && sameNumber a.min b.min && sameNumber a.max b.max &&
    sameNumber a.step b.step

/-- Whether two kinds have the same fields. -/
def SettingKind.same : SettingKind → SettingKind → Bool
  | .variableNumber a, .variableNumber b => a.same b
  | .variableNumberSlider a f, .variableNumberSlider b g => a.same b && f == g
  | a, b => a == b

namespace Setting

mutual

/-- Whether two settings say the same. -/
def same : Setting → Setting → Bool
  | ⟨id, title, description, kind, css, nested, extra⟩,
    ⟨id', title', description', kind', css', nested', extra'⟩ =>
    id == id' && title == title' && description == description' && kind.same kind' &&
      css == css' && sameAll nested nested' && (Yaml.Value.map extra).same (.map extra')

/-- Whether two lists of settings say the same. -/
def sameAll : List Setting → List Setting → Bool
  | [], [] => true
  | a :: as, b :: bs => same a b && sameAll as bs
  | _, _ => false

end

end Setting

/-- Whether two configs say the same. -/
def Config.same (a b : Config) : Bool :=
  a.name == b.name && a.id == b.id && Setting.sameAll a.settings b.settings &&
    a.globalCss == b.globalCss && a.format == b.format &&
    (Yaml.Value.map a.extra).same (.map b.extra)

end StyleSnippet
