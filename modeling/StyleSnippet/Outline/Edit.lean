import StyleSnippet.Outline.Chunk

/-!
# Changing the order of settings

Settings are deleted and moved by their chunks. A chunk is moved past its neighbour by exchanging
these two runs of the list, and to a position by taking it out and putting it in there.
-/

set_option autoImplicit false

namespace StyleSnippet

/-- The direction of a move by one step. -/
inductive Direction
  | up
  | down
  deriving DecidableEq, Repr

namespace Outline

/-- A list with the runs from `start` to `middle` and from `middle` to `stop` exchanged. -/
def exchange {α : Type} (start middle stop : Nat) (l : List α) : List α :=
  l.take start ++ Span.slice ⟨middle, stop⟩ l ++ Span.slice ⟨start, middle⟩ l ++ l.drop stop

/-- A list with a run put in at a position. -/
def putIn {α : Type} (place : Nat) (run l : List α) : List α := l.take place ++ run ++ l.drop place

/-- Deletes the chunk at a position: the settings that are left, and the deleted ones. -/
def delete (i : Nat) (settings : List Setting) : List Setting × List Setting :=
  match chunk? settings i with
  | some c => (c.outside settings, c.slice settings)
  | none => (settings, [])

/-- Where the neighbour in front of a chunk starts: the setting in front, or for a heading the
group in front. -/
def neighbourStart (settings : List Setting) (c : Span) : Nat :=
  if settings[c.start]?.any Setting.isHeading then groupStart settings (c.start - 1)
  else c.start - 1

/-- Where the neighbour behind a chunk stops: behind one setting, or for a heading behind one
chunk. -/
def neighbourStop (settings : List Setting) (c : Span) : Nat :=
  if settings[c.start]?.any Setting.isHeading then nextHeading settings (c.stop + 1)
  else c.stop + 1

/-- Moves the chunk at a position past its neighbour; none if there is no neighbour. -/
def moveBy (i : Nat) (direction : Direction) (settings : List Setting) :
    Option (List Setting) := do
  let c ← chunk? settings i
  match direction with
  | .up =>
    if c.start = 0 then none
    else some (exchange (neighbourStart settings c) c.start c.stop settings)
  | .down =>
    if c.stop = settings.length then none
    else some (exchange c.start c.stop (neighbourStop settings c) settings)

/-- Moves the chunk at one position in front of the setting at another, or to the end; none if
the chunk is there already or a position is out of bounds. -/
def moveTo (i target : Nat) (settings : List Setting) : Option (List Setting) := do
  let c ← chunk? settings i
  if settings.length < target ∨ c.start ≤ target ∧ target ≤ c.stop then none
  else
    -- The target counts the settings of the chunk, which are no longer there.
    let place := if c.stop < target then target - (c.stop - c.start) else target
    some (putIn place (c.slice settings) (c.outside settings))

end Outline

end StyleSnippet
