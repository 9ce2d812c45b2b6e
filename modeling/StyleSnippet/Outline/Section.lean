import StyleSnippet.Outline.Chunk

/-!
# Sections

Settings stand in one list, in which a heading has the settings behind it, up to the next
heading, for its children. This module groups the list by its headings, going from one to the
next. Settings in front of the first heading are a section without one.
-/

set_option autoImplicit false

namespace StyleSnippet

/-- A heading and its children. -/
structure Section where
  heading : Option Setting
  children : List Setting
  deriving Repr

namespace Section

open Outline

/-- The settings of a section, in order. -/
def settings (s : Section) : List Setting := s.heading.toList ++ s.children

/-- The sections from the position of a heading on. -/
def fromHeading (settings : List Setting) (i : Nat) : List Section :=
  if h : i < settings.length then
    let stop := nextHeading settings (i + 1)
    ⟨some settings[i], Span.slice ⟨i + 1, stop⟩ settings⟩ :: fromHeading settings stop
  else []
termination_by settings.length - i
decreasing_by
  have := le_nextHeading settings (i + 1)
  omega

/-- The sections of a list of settings. -/
def ofSettings (settings : List Setting) : List Section :=
  let first := nextHeading settings 0
  let headed := fromHeading settings first
  if first = 0 then headed else ⟨none, settings.take first⟩ :: headed

end Section

end StyleSnippet
