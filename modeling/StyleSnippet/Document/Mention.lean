import StyleSnippet.Text.Basic

/-!
# Mentions of an id

CSS mentions an id where the id stands behind a point or a hash and no identifier character
follows it. Occurrences of the id are looked for from the left and do not overlap.
-/

set_option autoImplicit false

namespace StyleSnippet

/-- Whether a character continues an identifier. -/
def isIdentChar (c : Char) : Bool := c.isAlphanum || c = '_' || c = '-'

/-- Whether an id can stand behind a character. -/
def marksId (c : Char) : Bool := c = '.' || c = '#'

/-- Whether a text mentions an id, where the given character stands in front of the text. -/
def mentionsFrom (id : Text) (hid : id ≠ []) (previous : Option Char) (t : Text) : Bool :=
  match t with
  | [] => false
  | c :: r =>
    match _h : Text.after? id (c :: r) with
    | some rest =>
      (previous.any marksId && !rest.head?.any isIdentChar) ||
        mentionsFrom id hid id.getLast? rest
    | none => mentionsFrom id hid (some c) r
termination_by t.length
decreasing_by
  · have hlength := Text.after?_length _h
    have hpos := List.length_pos_iff.mpr hid
    omega
  · simp

/-- Whether a text mentions an id. Nothing mentions the empty id. -/
def mentionsId (id t : Text) : Bool :=
  if h : id = [] then false else mentionsFrom id h none t

end StyleSnippet
