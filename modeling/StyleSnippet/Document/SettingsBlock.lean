import StyleSnippet.Text.Basic

/-!
# The settings block of a snippet

A snippet declares its settings in a comment that starts with `/* @settings` and ends with the
first `*/` that follows. Of several such comments the first one counts. The text in front of it
is no part of the snippet; the text behind it is the snippet's body.
-/

set_option autoImplicit false

namespace StyleSnippet

/-- A text cut at its settings block. -/
structure SettingsBlock where
  /-- The text in front of the block. -/
  before : Text
  /-- What the block says. -/
  yaml : Text
  /-- The text behind the block. -/
  after : Text
  deriving DecidableEq, Repr

namespace SettingsBlock

/-- The start of a settings block. -/
def opening : Text := "/* @settings"

/-- The end of a settings block. -/
def closing : Text := "*/"

/-- How a settings block is written, its two marks included. -/
def written (b : SettingsBlock) : Text := opening ++ b.yaml ++ closing

/-- The first settings block of a text. -/
def find? (t : Text) : Option SettingsBlock := do
  let (before, inside) ← Text.cutFirst? opening t
  let (yaml, after) ← Text.cutFirst? closing inside
  return { before := before, yaml := yaml, after := after }

/-- Cutting a text at its settings block loses nothing. -/
theorem eq_of_find? {t : Text} {b : SettingsBlock} (h : find? t = some b) :
    t = b.before ++ b.written ++ b.after := by
  simp only [find?, Option.bind_eq_bind, Option.bind_eq_some_iff, Option.pure_def,
    Option.some.injEq, Prod.exists] at h
  obtain ⟨before, inside, h₁, yaml, after, h₂, rfl⟩ := h
  rw [Text.eq_of_cutFirst? h₁, Text.eq_of_cutFirst? h₂]
  simp [written]

/-- The text from the settings block on is the snippet; its body is what follows the block, and
a text without a block is all body. -/
def bodyOf (t : Text) : Text :=
  match find? t with
  | some b => b.after
  | none => t

end SettingsBlock

end StyleSnippet
