import StyleSnippet.Settings.Setting

/-!
# Chunks

The chunk of a heading is the heading with its children; the chunk of any other setting is the
setting alone. What is done to a heading is done to its whole chunk. A chunk is told by where it
starts and stops in the list of settings.
-/

set_option autoImplicit false

namespace StyleSnippet

/-- A run of positions in a list, from `start` up to, but not including, `stop`. -/
structure Span where
  start : Nat
  stop : Nat
  deriving DecidableEq, Repr

namespace Span

/-- The items at the positions of a span. -/
def slice {α : Type} (s : Span) (l : List α) : List α := (l.drop s.start).take (s.stop - s.start)

/-- The items at all other positions. -/
def outside {α : Type} (s : Span) (l : List α) : List α := l.take s.start ++ l.drop s.stop

end Span

namespace Outline

/-- The position of the first heading from a position on, or the end of the list. -/
def nextHeading (settings : List Setting) (i : Nat) : Nat :=
  i + ((settings.drop i).takeWhile fun s => !s.isHeading).length

/-- The next heading is looked for from a position on. -/
theorem le_nextHeading (settings : List Setting) (i : Nat) : i ≤ nextHeading settings i :=
  Nat.le_add_right _ _

/-- Where the group that a position belongs to starts: at its heading, or at the start of the
list. -/
def groupStart (settings : List Setting) : (i : Nat) → Nat
  | 0 => 0
  | i + 1 => if settings[i + 1]?.any Setting.isHeading then i + 1 else groupStart settings i

/-- The chunk of the setting at a position, if there is one. -/
def chunk? (settings : List Setting) (i : Nat) : Option Span :=
  settings[i]?.map fun s => ⟨i, if s.isHeading then nextHeading settings (i + 1) else i + 1⟩

/-- The children of the setting at a position. -/
def children (settings : List Setting) (i : Nat) : Span :=
  match chunk? settings i with
  | some c => ⟨c.start + 1, c.stop⟩
  | none => ⟨i, i⟩

end Outline

end StyleSnippet
