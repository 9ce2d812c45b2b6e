import StyleSnippet.Css.Scope
import StyleSnippet.Document.Cell
import StyleSnippet.Proofs.Css.Insertion

/-!
# Ids that can be written

An id is written into the mark of a cell and, behind a point, into the class that its CSS is
confined to. It can be read back from both if it is made of the characters that the mark of a cell
allows: none of them is white space or means anything to a reader of CSS.
-/

set_option autoImplicit false

namespace StyleSnippet

open Text Css

/-- An id that the mark of a cell can name. -/
structure IsId (id : Text) : Prop where
  ne_nil : id ≠ []
  isIdChar : ∀ c ∈ id, Cell.isIdChar c = true

/-- Whether a text is an id can be computed. -/
instance (id : Text) : Decidable (IsId id) :=
  decidable_of_iff (id ≠ [] ∧ ∀ c ∈ id, Cell.isIdChar c = true)
    ⟨fun h => ⟨h.1, h.2⟩, fun h => ⟨h.ne_nil, h.isIdChar⟩⟩

/-- The characters of an id are inert. -/
theorem inert_of_isIdChar {c : Char} (h : Cell.isIdChar c = true) : Inert c := by
  refine ⟨?_, ?_⟩
  · by_contra hb
    rw [Bool.not_eq_false] at hb
    have hnot := forall_blank (p := fun c => !Cell.isIdChar c) (by decide +kernel) hb
    simp [h] at hnot
  · intro hm
    have hnot : ∀ c ∈ notedChars, Cell.isIdChar c = false := by decide +kernel
    rw [hnot c hm] at h
    simp at h

/-- A point and inert characters are a class to confine to. -/
theorem scopeClass_of_inert {id : Text} (h : ∀ c ∈ trim id, Inert c) :
    ScopeClass (Css.scopeClass id) :=
  ⟨rfl, List.forall_mem_cons.mpr ⟨⟨by decide, by decide⟩, h⟩⟩

namespace IsId

variable {id : Text}

/-- An id holds no white space. -/
theorem solid (h : IsId id) : Solid id :=
  fun c hc => (inert_of_isIdChar (h.isIdChar c hc)).not_blank

/-- An id is trimmed. -/
theorem trim_eq (h : IsId id) : trim id = id := h.solid.trimmed.trim_eq

/-- An id holds none of the characters that reading notes. -/
theorem not_mem {c : Char} (h : IsId id) (hc : c ∈ notedChars) : c ∉ id :=
  fun hm => (inert_of_isIdChar (h.isIdChar c hm)).not_noted hc

/-- A point and an id are a class to confine to. -/
theorem scopeClass (h : IsId (trim id)) : ScopeClass (Css.scopeClass id) :=
  scopeClass_of_inert fun c hc => inert_of_isIdChar (h.isIdChar c hc)

end IsId

end StyleSnippet
