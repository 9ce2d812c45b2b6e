import StyleSnippet.Proofs.Text.Lines

/-!
# Text that is put into a text

`Woven` says of two texts that the second one is the first one with a given text put in front of
some of its characters, each time at a place that a predicate allows. What a place is told by is
the text before it and the text behind it.

Woven texts are told by cutting: the first text falls into pieces at the places, and the second one
is the pieces with the given text between them.
-/

set_option autoImplicit false

namespace StyleSnippet.Text

/-- The third text is the second one, which is read behind the first, with `x` put in front of
characters where `P` allows it. -/
inductive Woven (x : Text) (P : Text → Text → Prop) : Text → Text → Text → Prop
  | nil (u : Text) : Woven x P u [] []
  | keep {u s t : Text} (c : Char) : Woven x P (u ++ [c]) s t → Woven x P u (c :: s) (c :: t)
  | put {u s t : Text} (c : Char) : P u (c :: s) → Woven x P (u ++ [c]) s t →
    Woven x P u (c :: s) (x ++ c :: t)

namespace Woven

variable {x u s t s' t' : Text} {P Q : Text → Text → Prop}

/-- A text is woven with nothing into itself. -/
theorem refl (u s : Text) : Woven x P u s s := by
  induction s generalizing u with
  | nil => exact .nil u
  | cons c s ih => exact .keep c (ih _)

/-- What is allowed by one rule is allowed by a wider one. -/
theorem imp (hPQ : ∀ a b, P a b → Q a b) (h : Woven x P u s t) : Woven x Q u s t := by
  induction h with
  | nil u => exact .nil u
  | keep c _ ih => exact .keep c ih
  | put c hP _ ih => exact .put c (hPQ _ _ hP) ih

/-- One text behind the other: the places of the first have all of the second behind them. -/
theorem append (h : Woven x (fun a b => P a (b ++ s')) u s t) (h' : Woven x P (u ++ s) s' t') :
    Woven x P u (s ++ s') (t ++ t') := by
  induction h with
  | nil u =>
    rw [List.append_nil] at h'
    exact h'
  | keep c _ ih =>
    rw [List.append_cons] at h'
    exact .keep c (ih h')
  | put c hP _ ih =>
    rw [List.append_cons] at h'
    rw [List.append_assoc, List.cons_append, List.cons_append]
    exact .put c hP (ih h')

/-- The given text in front of a text that does not start at the end. -/
theorem put_append (hs : s ≠ []) (hP : P u s) : Woven x P u s (x ++ s) := by
  obtain ⟨c, r, rfl⟩ := List.exists_cons_of_ne_nil hs
  exact .put c hP (.refl _ r)

/-- The pieces between the places. No two places are the same. -/
theorem exists_pieces (h : Woven x P u s t) : ∃ p ps, s = (p :: ps).flatten ∧
    t = x.intercalate (p :: ps) ∧
      ∀ l q r, p :: ps = l ++ q :: r → l ≠ [] → q ≠ [] ∧ P (u ++ l.flatten) (q :: r).flatten := by
  -- The first character belongs to the first piece, whether or not a place is in front of it.
  have hkeep {u s t : Text} {c : Char} (p : Text) (ps : List Text) (hs : s = (p :: ps).flatten)
      (ht : t = x.intercalate (p :: ps)) (hall : ∀ l q r, p :: ps = l ++ q :: r → l ≠ [] →
        q ≠ [] ∧ P (u ++ [c] ++ l.flatten) (q :: r).flatten) :
      c :: s = ((c :: p) :: ps).flatten ∧ c :: t = x.intercalate ((c :: p) :: ps) ∧
        ∀ l q r, (c :: p) :: ps = l ++ q :: r → l ≠ [] →
          q ≠ [] ∧ P (u ++ l.flatten) (q :: r).flatten := by
    rw [intercalate_cons] at ht ⊢
    refine ⟨by rw [hs]; rfl, by rw [ht]; rfl, ?_⟩
    intro l q r hcut hl
    obtain ⟨p', l, rfl⟩ := List.exists_cons_of_ne_nil hl
    rw [List.cons_append, List.cons.injEq] at hcut
    obtain ⟨rfl, rfl⟩ := hcut
    simpa using hall (p :: l) q r rfl (by simp)
  induction h with
  | nil u =>
    refine ⟨[], [], rfl, rfl, ?_⟩
    intro l q r hcut hl
    obtain ⟨p', l, rfl⟩ := List.exists_cons_of_ne_nil hl
    simp at hcut
  | keep c _ ih =>
    obtain ⟨p, ps, hs, ht, hall⟩ := ih
    exact ⟨c :: p, ps, hkeep p ps hs ht hall⟩
  | put c hP _ ih =>
    obtain ⟨p, ps, hs, ht, hall⟩ := ih
    obtain ⟨hs', ht', hall'⟩ := hkeep p ps hs ht hall
    -- The place at the start of the text has an empty piece in front of it.
    refine ⟨[], (c :: p) :: ps, by rw [hs']; rfl, ?_, ?_⟩
    · rw [ht', intercalate_cons, intercalate_cons]
      simp
    · intro l q r hcut hl
      obtain ⟨p', l, rfl⟩ := List.exists_cons_of_ne_nil hl
      rw [List.cons_append, List.cons.injEq] at hcut
      obtain ⟨rfl, hcut⟩ := hcut
      cases l with
      | nil =>
        rw [List.nil_append, List.cons.injEq] at hcut
        obtain ⟨rfl, rfl⟩ := hcut
        refine ⟨by simp, ?_⟩
        rw [← hs']
        simpa using hP
      | cons p' l => simpa using hall' (p' :: l) q r hcut (by simp)

end Woven

/-- A stretch of text in which no piece ends lies in one piece. -/
theorem exists_piece {pieces : List Text} {a w z : Text} (hw : w ≠ [])
    (h : pieces.flatten = a ++ (w ++ z))
    (hinside : ∀ l q r, pieces = l ++ q :: r → l ≠ [] →
      ∀ x y, w = x ++ y → x ≠ [] → y ≠ [] → l.flatten ≠ a ++ x) :
    ∃ l x y r, pieces = l ++ (x ++ w ++ y) :: r ∧ l.flatten ++ x = a := by
  induction pieces generalizing a with
  | nil => simp [hw] at h
  | cons p ps ih =>
    rw [List.flatten_cons] at h
    have hcases : (∃ a', a = p ++ a' ∧ ps.flatten = a' ++ (w ++ z)) ∨
        ∃ p', p' ≠ [] ∧ p = a ++ p' ∧ w ++ z = p' ++ ps.flatten := by
      rcases List.append_eq_append_iff.mp h with hfront | ⟨p', rfl, hrest⟩
      · exact Or.inl hfront
      · by_cases hp' : p' = []
        · exact Or.inl ⟨[], by simp [hp'], by simp [hrest, hp']⟩
        · exact Or.inr ⟨p', hp', rfl, hrest⟩
    rcases hcases with ⟨a', rfl, hrest⟩ | ⟨p', hp', rfl, hrest⟩
    · obtain ⟨l, x, y, r, rfl, rfl⟩ := ih hrest (by
        intro l q r hcut hl x y hxy hx hy hflat
        refine hinside (p :: l) q r (by rw [hcut]; rfl) (by simp) x y hxy hx hy ?_
        rw [List.flatten_cons, hflat, List.append_assoc])
      exact ⟨p :: l, x, y, r, rfl, by simp⟩
    · rcases List.append_eq_append_iff.mp hrest with ⟨y, rfl, -⟩ | ⟨y, rfl, hps⟩
      · exact ⟨[], a, y, ps, by simp, rfl⟩
      · by_cases hy : y = []
        · exact ⟨[], a, [], ps, by simp [hy], rfl⟩
        · cases ps with
          | nil => simp [hy] at hps
          | cons q r => exact absurd (by simp) (hinside [a ++ p'] q r rfl (by simp) p' y rfl hp' hy)

end StyleSnippet.Text
