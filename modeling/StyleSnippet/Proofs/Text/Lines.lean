import StyleSnippet.Proofs.Text.Search
import StyleSnippet.Proofs.Text.Trim

/-!
# Lines and words

A text is its pieces with line feeds between them, and pieces that hold no line feed are the
pieces of the text that they make up. The words of a text are pieces of it without white space.
-/

set_option autoImplicit false

namespace StyleSnippet.Text

/-! ## Joined texts -/

/-- Texts joined by a separator: the first one, and the others each behind a separator. -/
theorem intercalate_cons (sep s : Text) (ts : List Text) :
    sep.intercalate (s :: ts) = s ++ ts.flatMap (sep ++ ·) := by
  induction ts generalizing s with
  | nil => simp [List.intercalate]
  | cons t ts ih =>
    have h : sep.intercalate (s :: t :: ts) = s ++ (sep ++ sep.intercalate (t :: ts)) := by
      simp [List.intercalate, List.intersperse]
    rw [h, ih t]
    simp

/-- Two lists of texts are joined by joining what each makes up. -/
theorem intercalate_append (sep : Text) {ts us : List Text} (ht : ts ≠ []) (hu : us ≠ []) :
    sep.intercalate (ts ++ us) = sep.intercalate ts ++ (sep ++ sep.intercalate us) := by
  obtain ⟨t, ts, rfl⟩ := List.exists_cons_of_ne_nil ht
  obtain ⟨u, us, rfl⟩ := List.exists_cons_of_ne_nil hu
  rw [List.cons_append, intercalate_cons, intercalate_cons, intercalate_cons, List.flatMap_append,
    List.flatMap_cons]
  simp only [List.append_assoc]

/-- Joined texts end in the last one. -/
theorem intercalate_concat (sep : Text) (ts : List Text) (t : Text) :
    ∃ s, sep.intercalate (ts ++ [t]) = s ++ t := by
  cases ts with
  | nil => exact ⟨[], by simp [List.intercalate]⟩
  | cons u ts =>
    rw [List.cons_append, intercalate_cons]
    exact ⟨u ++ ts.flatMap (sep ++ ·) ++ sep, by simp⟩

/-- Each of the joined texts occurs in what they make up. -/
theorem infix_of_mem_intercalate (sep : Text) {ts : List Text} {t : Text} (h : t ∈ ts) :
    t <:+: sep.intercalate ts := by
  obtain ⟨l, r, rfl⟩ := List.append_of_mem h
  cases l with
  | nil =>
    rw [List.nil_append, intercalate_cons]
    exact (List.prefix_append t _).isInfix
  | cons u l =>
    rw [List.cons_append, intercalate_cons]
    exact ⟨u ++ l.flatMap (sep ++ ·) ++ sep, r.flatMap (sep ++ ·), by simp⟩

/-- A text that holds no character of the separator occurs in joined texts only inside one of
them. -/
theorem infix_intercalate {n sep : Text} {ts : List Text} (hne : n ≠ []) (hsep : sep ≠ [])
    (hn : ∀ c ∈ sep, c ∉ n) (h : n <:+: sep.intercalate ts) : ∃ t ∈ ts, n <:+: t := by
  induction ts with
  | nil =>
    simp only [List.intercalate, List.intersperse, List.flatten_nil] at h
    exact absurd (List.infix_nil.mp h) hne
  | cons s ts ih =>
    cases ts with
    | nil => exact ⟨s, by simp, by simpa [List.intercalate] using h⟩
    | cons t ts =>
      obtain ⟨c, r, rfl⟩ := List.exists_cons_of_ne_nil hsep
      obtain ⟨d, n, rfl⟩ := List.exists_cons_of_ne_nil hne
      rw [List.intercalate_cons_cons, List.append_assoc, List.cons_append,
        infix_append_cons (hn c (by simp))] at h
      rcases h with h | h
      · exact ⟨s, by simp, h⟩
      · have hd : d ∉ r := fun hm => hn d (List.mem_cons_of_mem c hm) (by simp)
        obtain ⟨u, hu, hin⟩ := ih (infix_append_of_head hd h)
        exact ⟨u, List.mem_cons_of_mem s hu, hin⟩

/-- Trimmed texts that are not empty make up a trimmed text. -/
theorem trimmed_intercalate {sep : Text} {ts : List Text} (h : ∀ t ∈ ts, t ≠ [] ∧ Trimmed t) :
    Trimmed (sep.intercalate ts) := by
  induction ts with
  | nil => exact ⟨by simp [List.intercalate], by simp [List.intercalate]⟩
  | cons s ts ih =>
    have hs := h s (by simp)
    cases ts with
    | nil => simpa [List.intercalate] using hs.2
    | cons t ts =>
      have hrest := ih fun x hx => h x (List.mem_cons_of_mem s hx)
      have hne : sep.intercalate (t :: ts) ≠ [] := by
        rw [intercalate_cons]
        simp [(h t (by simp)).1]
      rw [List.intercalate_cons_cons]
      exact hs.2.append hrest hs.1 hne sep

/-- What stands between two pieces of a body. -/
def blankLine : Text := "\n\n"

/-- A blank line is white space. -/
theorem blank_blankLine : Blank blankLine := by
  intro c hc
  have hfeed : c = '\n' := by simpa [blankLine] using hc
  rw [hfeed]
  decide

/-- Pieces behind blank lines, if there are any, start with a line feed. -/
theorem flatMap_blankLine_cases {α : Type} (f : α → Text) (l : List α) :
    (l.flatMap fun x => blankLine ++ f x) = [] ∨
      ∃ r, (l.flatMap fun x => blankLine ++ f x) = '\n' :: r := by
  cases l with
  | nil => exact Or.inl rfl
  | cons x l => exact Or.inr ⟨_, rfl⟩

/-! ## Pieces -/

/-- Even the empty text is one piece. -/
theorem pieces_ne_nil (t : Text) : pieces t ≠ [] := by
  cases t with
  | nil => simp [pieces]
  | cons c r =>
    unfold pieces
    split
    · simp
    · split <;> simp

/-- The first piece of a text ends at its first line feed. -/
theorem pieces_append_cons {p : Text} (hp : '\n' ∉ p) (t : Text) :
    pieces (p ++ '\n' :: t) = p :: pieces t := by
  induction p with
  | nil => simp [pieces]
  | cons c r ih =>
    simp only [List.mem_cons, not_or] at hp
    rw [List.cons_append, pieces, if_neg (Ne.symm hp.1), ih hp.2]

/-- A text without line feeds is one piece. -/
theorem pieces_of_not_mem {p : Text} (hp : '\n' ∉ p) : pieces p = [p] := by
  induction p with
  | nil => rfl
  | cons c r ih =>
    simp only [List.mem_cons, not_or] at hp
    rw [pieces, if_neg (Ne.symm hp.1), ih hp.2]

/-- Texts without line feeds are the pieces of what they make up. -/
theorem pieces_intercalate {ps : List Text} (hne : ps ≠ []) (h : ∀ p ∈ ps, '\n' ∉ p) :
    pieces (List.intercalate ['\n'] ps) = ps := by
  induction ps with
  | nil => exact absurd rfl hne
  | cons p ps ih =>
    cases ps with
    | nil => simpa [List.intercalate] using pieces_of_not_mem (h p (by simp))
    | cons q qs =>
      have hj : List.intercalate ['\n'] (p :: q :: qs) =
          p ++ '\n' :: List.intercalate ['\n'] (q :: qs) := by
        simp [List.intercalate, List.intersperse]
      rw [hj, pieces_append_cons (h p (by simp)),
        ih (by simp) fun r hr => h r (List.mem_cons_of_mem p hr)]

/-- A text is made up of its pieces. -/
theorem intercalate_pieces (t : Text) : List.intercalate ['\n'] (pieces t) = t := by
  induction t with
  | nil => rfl
  | cons c r ih =>
    rw [pieces]
    cases hp : pieces r with
    | nil => exact absurd hp (pieces_ne_nil r)
    | cons p ps =>
      rw [hp] at ih
      split
      · next hc =>
        rw [intercalate_cons] at ih ⊢
        simpa [hc] using ih
      · rw [intercalate_cons] at ih ⊢
        simpa using ih

/-- No piece of a text holds a line feed. -/
theorem not_mem_of_mem_pieces {t p : Text} (h : p ∈ pieces t) : '\n' ∉ p := by
  induction t generalizing p with
  | nil =>
    simp only [pieces, List.mem_singleton] at h
    simp [h]
  | cons c r ih =>
    rw [pieces] at h
    cases hp : pieces r with
    | nil => exact absurd hp (pieces_ne_nil r)
    | cons q qs =>
      rw [hp] at h ih
      split at h
      · rcases List.mem_cons.mp h with rfl | h
        · simp
        · exact ih h
      · next hc =>
        rcases List.mem_cons.mp h with rfl | h
        · simpa [Ne.symm hc] using ih (p := q) (by simp)
        · exact ih (List.mem_cons_of_mem q h)

/-- A piece stands in the text that is cut. -/
theorem infix_of_mem_pieces {t p : Text} (h : p ∈ pieces t) : p <:+: t := by
  conv_rhs => rw [← intercalate_pieces t]
  exact infix_of_mem_intercalate ['\n'] h

/-- Texts are the lines of what they make up if none is empty, holds a line feed or ends in a
carriage return. -/
theorem lines_intercalate {ls : List Text} (hne : ∀ l ∈ ls, l ≠ []) (hfeed : ∀ l ∈ ls, '\n' ∉ l)
    (hreturn : ∀ l ∈ ls, l.getLast? ≠ some '\r') : lines (['\n'].intercalate ls) = ls := by
  rcases List.eq_nil_or_concat' ls with rfl | ⟨whole, last, rfl⟩
  · rfl
  · have hwhole : whole.map dropReturn = whole := by
      conv_rhs => rw [← List.map_id whole]
      apply List.map_congr_left
      intro l hl
      rw [dropReturn, if_neg (hreturn l (List.mem_append_left _ hl)), id]
    obtain ⟨c, r, hlast⟩ := List.exists_cons_of_ne_nil (hne last (by simp))
    rw [lines, pieces_intercalate (by simp) hfeed, List.getLast?_concat, List.dropLast_concat,
      hlast, hwhole]

/-! ## Words -/

/-- A character that is not white space is a word of its own, or joins the word that follows, which
is then where the rest of the text starts. -/
theorem words_cons_cases {c : Char} (hc : isBlank c = false) (r : Text) :
    words (c :: r) = [c] :: words r ∨
      ∃ w ws, w <+: r ∧ words r = w :: ws ∧ words (c :: r) = (c :: w) :: ws := by
  induction r generalizing c with
  | nil => exact Or.inl (by simp [words, hc])
  | cons d r ih =>
    by_cases hd : isBlank d = true
    · exact Or.inl (by rw [words]; simp [hc, hd])
    · rw [Bool.not_eq_true] at hd
      right
      have hjoin {w : Text} {ws : List Text} (h : words (d :: r) = w :: ws) :
          words (c :: d :: r) = (c :: w) :: ws := by
        rw [words]
        simp [hc, hd, h]
      rcases ih hd with h | ⟨w, ws, hw, -, h⟩
      · exact ⟨[d], words r, List.prefix_append [d] r, h, hjoin h⟩
      · exact ⟨d :: w, ws, (List.prefix_cons_inj d).mpr hw, h, hjoin h⟩

/-- A word of a text occurs in it and holds no white space. -/
theorem infix_of_mem_words {t w : Text} (h : w ∈ words t) : w <:+: t ∧ Solid w := by
  induction t generalizing w with
  | nil => simp [words] at h
  | cons c r ih =>
    by_cases hc : isBlank c = true
    · unfold words at h
      rw [if_pos hc] at h
      exact ⟨List.infix_cons (ih h).1, (ih h).2⟩
    · rw [Bool.not_eq_true] at hc
      rcases words_cons_cases hc r with hwords | ⟨v, vs, hv, hr, hwords⟩
      · rw [hwords] at h
        rcases List.mem_cons.mp h with rfl | h
        · exact ⟨⟨[], r, rfl⟩, by simp [hc]⟩
        · exact ⟨List.infix_cons (ih h).1, (ih h).2⟩
      · rw [hwords] at h
        rw [hr] at ih
        rcases List.mem_cons.mp h with rfl | h
        · have hsolid := (ih (w := v) (by simp)).2
          exact ⟨((List.prefix_cons_inj c).mpr hv).isInfix, solid_cons.mpr ⟨hc, hsolid⟩⟩
        · have hmem := ih (List.mem_cons_of_mem v h)
          exact ⟨List.infix_cons hmem.1, hmem.2⟩

end StyleSnippet.Text
