import StyleSnippet.Proofs.Text.Lines

/-!
# The ink of a text

The ink of a text is what is left without its white space: the characters that can be seen, in
their order. Texts that are put together have their inks put together, and white space between them
makes no difference.
-/

set_option autoImplicit false

namespace StyleSnippet.Text

/-- The characters of a text that are not white space. -/
def ink (t : Text) : Text := t.filter fun c => !isBlank c

/-- There is no ink in the empty text. -/
@[simp]
theorem ink_nil : ink [] = [] := rfl

/-- The ink of two texts is put together. -/
@[simp]
theorem ink_append (s t : Text) : ink (s ++ t) = ink s ++ ink t := List.filter_append s t

/-- There is no ink in white space. -/
theorem ink_of_blank {t : Text} (h : Blank t) : ink t = [] :=
  List.filter_eq_nil_iff.mpr fun c hc => by simp [h c hc]

/-- Trimming keeps the ink. -/
@[simp]
theorem ink_trim (t : Text) : ink (trim t) = ink t := by
  obtain ⟨u, v, hu, hv, ht⟩ := exists_eq_append_trim t
  conv_rhs => rw [ht]
  simp [ink_of_blank hu, ink_of_blank hv]

/-- The ink of pieces that are put together is that of each piece. -/
theorem ink_flatMap {α : Type} (f : α → Text) (l : List α) :
    ink (l.flatMap f) = l.flatMap fun x => ink (f x) := List.filter_flatMap

/-- Between texts, white space leaves no ink. -/
theorem ink_intercalate {sep : Text} (h : Blank sep) (ts : List Text) :
    ink (sep.intercalate ts) = ts.flatMap ink := by
  cases ts with
  | nil => rfl
  | cons t ts => simp [intercalate_cons, ink_flatMap, ink_of_blank h]

/-- Texts that are empty leave no ink. -/
theorem flatMap_ink_filter (ts : List Text) :
    (ts.filter fun t => !t.isEmpty).flatMap ink = ts.flatMap ink := by
  induction ts with
  | nil => rfl
  | cons t ts ih =>
    cases t with
    | nil => simpa using ih
    | cons c t => simpa using ih

/-- Trimming pieces keeps their ink. -/
theorem flatMap_ink_map_trim (ts : List Text) : (ts.map trim).flatMap ink = ts.flatMap ink := by
  simp [List.flatMap_map]

end StyleSnippet.Text
