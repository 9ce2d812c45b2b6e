import StyleSnippet.Text.Pattern

/-!
# Banners

By the other convention, the CSS that a setting owns stands behind a banner: a comment with a
title between two rows of asterisks. A row is a comment of at least twenty asterisks, and the
three are parted by white space that holds a line feed. The title keeps to one line; a `*/` in
it does not end it unless a row follows.
-/

set_option autoImplicit false

namespace StyleSnippet

/-- A banner: its title, and how it is written. -/
structure Banner where
  title : Text
  written : Text
  deriving DecidableEq, Repr

namespace Banner

/-- The fewest asterisks of a row. -/
def minStars : Nat := 20

/-- The text of a row. -/
def row (stars : Nat) : Text := '/' :: (List.replicate stars '*' ++ ['/'])

/-- The row at the start of a text, and the text after it. -/
def row? : Text → Option (Text × Text)
  | '/' :: r =>
    let stars := r.takeWhile (· = '*')
    match r.dropWhile (· = '*') with
    | '/' :: rest =>
      if minStars ≤ stars.length then some ('/' :: (stars ++ ['/']), rest) else none
    | _ => none
  | _ => none

/-- A row is not empty, and the text starts with it. -/
theorem eq_of_row? {t written rest : Text} (h : row? t = some (written, rest)) :
    t = written ++ rest ∧ written ≠ [] := by
  unfold row? at h
  split at h
  · next r =>
    have hr := List.takeWhile_append_dropWhile (p := (· = '*')) (l := r)
    simp only at h
    split at h
    · next rest' hd =>
      rw [hd] at hr
      simp only [Option.ite_none_right_eq_some, Option.some.injEq, Prod.mk.injEq] at h
      obtain ⟨-, rfl, rfl⟩ := h
      exact ⟨by simpa using hr.symm, by simp⟩
    · simp at h
  · simp at h

/-- The white space at the start of a text, and the text after it. It must hold a line feed. -/
def gap? (t : Text) : Option (Text × Text) :=
  let blanks := t.takeWhile Text.isBlank
  if '\n' ∈ blanks then some (blanks, t.dropWhile Text.isBlank) else none

/-- What is read as a gap starts the text. -/
theorem eq_of_gap? {t written rest : Text} (h : gap? t = some (written, rest)) :
    t = written ++ rest := by
  simp only [gap?, Option.ite_none_right_eq_some, Option.some.injEq, Prod.mk.injEq] at h
  obtain ⟨-, rfl, rfl⟩ := h
  exact (List.takeWhile_append_dropWhile).symm

/-- The end of a banner at the start of a text, from the `*/` behind the title on, and the text
after it. -/
def ending? (t : Text) : Option (Text × Text) := do
  let r ← Text.after? "*/" t
  let (gap, r) ← gap? r
  let (row, rest) ← row? r
  return ("*/" ++ gap ++ row, rest)

/-- What is read as an ending starts the text. -/
theorem eq_of_ending? {t written rest : Text} (h : ending? t = some (written, rest)) :
    t = written ++ rest := by
  simp only [ending?, Option.bind_eq_bind, Option.bind_eq_some_iff, Prod.exists, Option.pure_def,
    Option.some.injEq, Prod.mk.injEq] at h
  obtain ⟨r, h₁, gap, r', h₂, row, rest', h₃, rfl, rfl⟩ := h
  rw [Text.eq_append_of_after? h₁, eq_of_gap? h₂, (eq_of_row? h₃).1]
  simp

/-- The title at the start of a text, the end of the banner, and the text after it. The title is
the shortest text in front of such an end. -/
def titled? : Text → Option (Text × Text × Text)
  | [] => none
  | c :: r =>
    match ending? (c :: r) with
    | some (written, rest) => some ([], written, rest)
    | none => if c = '\n' then none else (titled? r).map fun p => (c :: p.1, p.2)

/-- The title and the rest of the header start the text. -/
theorem eq_of_titled? {t title written rest : Text}
    (h : titled? t = some (title, written, rest)) : t = title ++ written ++ rest := by
  induction t generalizing title with
  | nil => simp [titled?] at h
  | cons c r ih =>
    simp only [titled?] at h
    split at h
    · next hr =>
      simp only [Option.some.injEq, Prod.mk.injEq] at h
      obtain ⟨rfl, rfl, rfl⟩ := h
      simpa using eq_of_ending? hr
    · simp only [Option.ite_none_left_eq_some, Option.map_eq_some_iff, Prod.mk.injEq,
        Prod.exists] at h
      obtain ⟨-, title', written', rest', hp, rfl, rfl, rfl⟩ := h
      simpa using ih hp

/-- The banner at the start of a text, and the text after it. -/
def ofText? (t : Text) : Option (Banner × Text) := do
  let (row, r) ← row? t
  let (gap, r) ← gap? r
  let r ← Text.after? "/*" r
  let (title, ending, rest) ← titled? r
  return ({ title := title, written := row ++ gap ++ "/*" ++ title ++ ending }, rest)

/-- A banner and the text after it make up the text. -/
theorem eq_of_ofText? {t rest : Text} {b : Banner} (h : ofText? t = some (b, rest)) :
    t = b.written ++ rest ∧ b.written ≠ [] := by
  simp only [ofText?, Option.bind_eq_bind, Option.bind_eq_some_iff, Prod.exists, Option.pure_def,
    Option.some.injEq, Prod.mk.injEq] at h
  obtain ⟨row, r₁, h₁, gap, r₂, h₂, r₃, h₃, title, ending, tail, h₄, rfl, rfl⟩ := h
  rw [(eq_of_row? h₁).1, eq_of_gap? h₂, Text.eq_append_of_after? h₃, eq_of_titled? h₄]
  exact ⟨by simp, by simp [(eq_of_row? h₁).2]⟩

/-- Banners, as a pattern. The value of a banner is its title. -/
def pattern : Pattern Text where
  match? t := (ofText? t).map fun p => (p.1.title, p.1.written, p.2)
  sound := by
    intro t title written rest h
    simp only [Option.map_eq_some_iff, Prod.mk.injEq, Prod.exists] at h
    obtain ⟨b, rest', h, rfl, rfl, rfl⟩ := h
    exact eq_of_ofText? h

/-- The end of a comment, as a pattern. -/
def commentEnd : Pattern Unit := .literal "*/" (by decide)

/-- A title that fits into a comment on one line: its words, parted by single spaces, without
the end of a comment in it. -/
def plainTitle (title : Text) : Text :=
  List.intercalate " ".toList (Text.words (commentEnd.replace "* /" title))

/-- A banner with a setting's title, and the setting's CSS behind it. -/
def render (stars : Nat) (title css : Text) : Text :=
  let row := row (max stars minStars)
  row ++ "\n/* " ++ plainTitle title ++ " */\n" ++ row ++ '\n' :: css

end Banner

end StyleSnippet
