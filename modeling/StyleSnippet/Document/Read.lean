import StyleSnippet.Document.Body
import StyleSnippet.Document.Error
import StyleSnippet.Document.SettingsBlock
import StyleSnippet.Schema.Decode
import StyleSnippet.Yaml.Reader

/-!
# Reading a snippet

A snippet is read as the config of its settings block, among whose settings the body is shared
out. The config remembers the convention that the body keeps to.
-/

set_option autoImplicit false

namespace StyleSnippet

/-- What a tab in a settings block counts as, since YAML is not indented by tabs. -/
def tabReplacement : Text := "    "

/-- A text without tabs. -/
def expandTabs (t : Text) : Text := t.flatMap fun c => if c = '\t' then tabReplacement else [c]

namespace Config

/-- The config that a settings block says, without any CSS. -/
def ofYaml (yaml : Text) : Except ReadError Config :=
  match Yaml.read? (expandTabs yaml) with
  | none => .error .notYaml
  | some v =>
    match v.untagged with
    | .null => .error .emptyBlock
    | _ => (Schema.decode v).mapError .schema

/-- A config with a body shared out among its settings. -/
def withBody (c : Config) (body : Text) : Config :=
  let format := Body.formatOf body
  let shares := Body.share format c.settings body
  { c with settings := shares.settings, globalCss := shares.globalCss, format := some format }

/-- The config of a snippet. -/
def ofSnippet (t : Text) : Except ReadError Config :=
  match SettingsBlock.find? t with
  | none => .error .noBlock
  | some b => (ofYaml b.yaml).map fun c => c.withBody (Text.trim b.after)

end Config

end StyleSnippet
