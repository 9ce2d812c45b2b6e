import StyleSnippet.Text.Pattern
import StyleSnippet.Text.Word

/-!
# Cells

By one of two conventions, the CSS that a setting owns stands in a cell: between a comment that
names the setting and a comment that ends the cell. A cell ends at the first such end. Its id
is made of word characters and hyphens.
-/

set_option autoImplicit false

namespace StyleSnippet

/-- A cell: the id that it names and the text between its two marks. -/
structure Cell where
  id : Text
  content : Text
  deriving DecidableEq, Repr

namespace Cell

/-- What precedes the id of a cell. -/
def opening : Text := "/* @cell: "

/-- What follows the id of a cell. -/
def openingEnd : Text := " */"

/-- The end of a cell. -/
def closing : Text := "/* @cell-end */"

/-- Whether a character can be part of the id of a cell. -/
def isIdChar (c : Char) : Bool := Text.isWord c || c = '-'

/-- How a cell is written. -/
def written (c : Cell) : Text := opening ++ c.id ++ openingEnd ++ c.content ++ closing

/-- The cell at the start of a text, and the text after it. -/
def ofText? (t : Text) : Option (Cell × Text) := do
  let r ← Text.after? opening t
  let id := r.takeWhile isIdChar
  let inside ← Text.after? openingEnd (r.dropWhile isIdChar)
  let (content, rest) ← Text.cutFirst? closing inside
  if id.isEmpty then none else some ({ id := id, content := content }, rest)

/-- A cell and the text after it make up the text. -/
theorem eq_of_ofText? {t rest : Text} {c : Cell} (h : ofText? t = some (c, rest)) :
    t = c.written ++ rest := by
  simp only [ofText?, Option.bind_eq_bind, Option.bind_eq_some_iff, Prod.exists,
    Option.ite_none_left_eq_some, Option.some.injEq, Prod.mk.injEq] at h
  obtain ⟨r, h₁, inside, h₂, content, rest', h₃, -, rfl, rfl⟩ := h
  have hr : r.takeWhile isIdChar ++ (openingEnd ++ (content ++ closing ++ rest')) = r := by
    rw [← Text.eq_of_cutFirst? h₃, ← Text.eq_append_of_after? h₂,
      List.takeWhile_append_dropWhile]
  rw [Text.eq_append_of_after? h₁]
  simpa [written] using hr.symm

/-- A cell is not empty as it is written. -/
theorem written_ne_nil (c : Cell) : c.written ≠ [] := by
  have h : opening ≠ [] := by decide
  simp [written, h]

/-- Cells, as a pattern. -/
def pattern : Pattern Cell where
  match? t := (ofText? t).map fun p => (p.1, p.1.written, p.2)
  sound := by
    intro t c written rest h
    simp only [Option.map_eq_some_iff, Prod.mk.injEq, Prod.exists] at h
    obtain ⟨c', rest', h, rfl, rfl, rfl⟩ := h
    exact ⟨eq_of_ofText? h, c'.written_ne_nil⟩

/-- A cell with a setting's CSS on lines of its own. -/
def render (id css : Text) : Text := written { id := id, content := '\n' :: (css ++ ['\n']) }

end Cell

end StyleSnippet
