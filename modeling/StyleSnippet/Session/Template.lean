import StyleSnippet.Text.Basic

/-!
# The text of a new snippet

A snippet that is made from scratch starts with one color setting, and a body that declares the
setting's custom property.
-/

set_option autoImplicit false

namespace StyleSnippet

/-- The lines of a new snippet. -/
def templateLines : List Text :=
  ["/* @settings",
   "name: New Section",
   "id: new-section",
   "settings:",
   "    - ",
   "        id: my-color",
   "        title: My Color",
   "        type: variable-color",
   "        default: '#ff0000'",
   "*/",
   "",
   "body \x7b",
   "    /* Use your variables here */",
   "    --my-color: #ff0000;",
   "\x7d"]

/-- The text of a new snippet. -/
def defaultTemplate : Text := templateLines.flatMap fun line => line ++ ['\n']

end StyleSnippet
