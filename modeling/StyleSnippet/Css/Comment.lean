import StyleSnippet.Text.Basic

/-!
# Complete comments

A complete comment is `/*`, anything, and the first `*/` that follows. This module cuts one off
the front of a text and removes all of them from a text. String literals play no part here: a
comment mark inside a string is taken for a comment.
-/

set_option autoImplicit false

namespace StyleSnippet.Css

/-- The complete comment at the start of a text, and the text after it. -/
def comment? (t : Text) : Option (Text × Text) :=
  match Text.after? "/*" t with
  | none => none
  | some inside =>
    (Text.cutFirst? "*/" inside).map fun p => ("/*" ++ p.1 ++ "*/", p.2)

/-- A comment and what follows it make up the text, and the comment is not empty. -/
theorem eq_append_of_comment? {t c rest : Text} (h : comment? t = some (c, rest)) :
    t = c ++ rest ∧ c ≠ [] := by
  simp only [comment?] at h
  split at h
  · simp at h
  · next inside hi =>
    simp only [Option.map_eq_some_iff, Prod.mk.injEq] at h
    obtain ⟨p, hp, rfl, rfl⟩ := h
    rw [Text.eq_append_of_after? hi, Text.eq_of_cutFirst? hp]
    exact ⟨by simp, by simp⟩

/-- A comment is not empty, so the text behind it is shorter. -/
theorem comment?_length {t c rest : Text} (h : comment? t = some (c, rest)) :
    rest.length < t.length := by
  obtain ⟨rfl, hc⟩ := eq_append_of_comment? h
  have := List.length_pos_iff.mpr hc
  simp only [List.length_append]
  omega

/-- A text without its complete comments. A comment that never ends is kept. -/
def stripComments (t : Text) : Text :=
  match t with
  | [] => []
  | c :: r =>
    match _h : comment? (c :: r) with
    | some (_, rest) => stripComments rest
    | none => c :: stripComments r
termination_by t.length
decreasing_by
  · exact comment?_length _h
  · simp

/-- The white space and complete comments at the start of a text, and the text after them. -/
def cutLead (t : Text) : Text × Text :=
  match t with
  | [] => ([], [])
  | c :: r =>
    if Text.isBlank c then
      let p := cutLead r
      (c :: p.1, p.2)
    else match _h : comment? (c :: r) with
      | some (comment, rest) =>
        let p := cutLead rest
        (comment ++ p.1, p.2)
      | none => ([], c :: r)
termination_by t.length
decreasing_by
  · simp
  · exact comment?_length _h

/-- The lead and what follows it make up the text. -/
theorem cutLead_append (t : Text) : (cutLead t).1 ++ (cutLead t).2 = t := by
  fun_induction cutLead t with
  | case1 => rfl
  | case2 c r hc p ih => simpa [p] using ih
  | case3 c r hc comment rest h p ih =>
    rw [(eq_append_of_comment? h).1, List.append_assoc, ih]
  | case4 => rfl

end StyleSnippet.Css
