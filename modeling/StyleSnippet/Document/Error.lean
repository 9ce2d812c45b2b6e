import StyleSnippet.Schema.Error

/-!
# What can be wrong with a snippet

A text that is read as a snippet may have no settings block, or one that cannot be read. A config
that is written may have no YAML text, or one that would end the settings block early.
-/

set_option autoImplicit false

namespace StyleSnippet

/-- Why a text is no snippet. -/
inductive ReadError
  /-- There is no settings block. -/
  | noBlock
  /-- The settings block is no YAML. -/
  | notYaml
  /-- The settings block says nothing. -/
  | emptyBlock
  /-- The settings block says something else than settings. -/
  | schema (error : Schema.Error)
  deriving DecidableEq, Repr

namespace ReadError

/-- Whether there is a settings block, but one that cannot be read. -/
def isMalformed : ReadError → Bool
  | noBlock => false
  | notYaml | emptyBlock | schema _ => true

/-- What is wrong, in words. -/
def text : ReadError → Text
  | noBlock => "no @settings block found"
  | notYaml => "malformed @settings block: invalid YAML"
  | emptyBlock => "malformed @settings block: empty @settings block"
  | schema e => "malformed @settings block: " ++ e.text

end ReadError

/-- Why a config cannot be written as a snippet. -/
inductive WriteError
  /-- An entry of the config has no YAML text. -/
  | noYaml
  /-- The YAML text would end the comment that it stands in. -/
  | commentEnd
  deriving DecidableEq, Repr

namespace WriteError

/-- What is wrong, in words. -/
def text : WriteError → Text
  | noYaml => "failed to encode settings"
  | commentEnd => "settings contain '*/', which would terminate the @settings comment"

end WriteError

end StyleSnippet
