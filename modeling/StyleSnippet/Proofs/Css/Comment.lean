import StyleSnippet.Css.Comment
import StyleSnippet.Proofs.Css.Insertion

/-!
# Complete comments and what stands behind them

A complete comment is read the same whatever follows it, and leaves code behind. So the lead of a
selector, its white space and complete comments, can be told apart from any text that is put
behind it, and leaves nothing but white space when comments are taken out.
-/

set_option autoImplicit false

namespace StyleSnippet.Css

open Text

variable {t c rest x : Text}

/-! ## One comment -/

/-- A complete comment is its two marks around a text in which it does not end. -/
theorem comment?_eq_some_iff : comment? t = some (c, rest) ↔
    ∃ body : Text, c = "/*".toList ++ body ++ "*/".toList ∧ t = c ++ rest ∧
      ¬ "*/".toList <:+: body ++ ['*'] := by
  have hcut (inside a b : Text) : cutFirst? "*/" inside = some (a, b) ↔
      inside = a ++ "*/".toList ++ b ∧ ¬ "*/".toList <:+: a ++ ['*'] :=
    cutFirst?_eq_some_iff (by decide)
  constructor
  · intro h
    simp only [comment?] at h
    split at h
    · simp at h
    · next inside hi =>
      simp only [Option.map_eq_some_iff, Prod.mk.injEq] at h
      obtain ⟨⟨body, r⟩, hb, rfl, rfl⟩ := h
      obtain ⟨rfl, hend⟩ := (hcut _ _ _).mp hb
      exact ⟨body, rfl, by rw [eq_append_of_after? hi]; simp, hend⟩
  · rintro ⟨body, rfl, rfl, hend⟩
    have ha : after? "/*" ("/*".toList ++ body ++ "*/".toList ++ rest) =
        some (body ++ "*/".toList ++ rest) := by
      rw [List.append_assoc, List.append_assoc, List.append_assoc]
      exact after?_append _ _
    have hc := (hcut (body ++ "*/".toList ++ rest) body rest).mpr ⟨rfl, hend⟩
    simp only [comment?]
    rw [ha]
    simp only
    rw [hc]
    rfl

/-- A complete comment is read the same whatever follows it. -/
theorem comment?_append (h : comment? t = some (c, rest)) (x : Text) :
    comment? (c ++ x) = some (c, x) := by
  obtain ⟨body, hc, -, hend⟩ := comment?_eq_some_iff.mp h
  exact comment?_eq_some_iff.mpr ⟨body, hc, rfl, hend⟩

/-- No comment starts with another character than a solidus. -/
theorem comment?_cons_ne {d : Char} (h : d ≠ '/') (t : Text) : comment? (d :: t) = none := by
  have ha : after? "/*" (d :: t) = none := after?_cons_ne (Ne.symm h) ['*'] t
  rw [comment?, ha]

/-- A blank character starts no comment. -/
theorem comment?_cons_blank {d : Char} (h : isBlank d = true) (t : Text) :
    comment? (d :: t) = none := by
  apply comment?_cons_ne
  rintro rfl
  exact absurd h (by decide)

/-- Inside a comment, text that does not end it leaves the comment open. The flag of the mode
stands for an asterisk before the text. -/
theorem isComment_after (body : Text) :
    (¬ "*/".toList <:+: body → (Mode.after .comment body).isComment = true) ∧
      (¬ "*/".toList <:+: '*' :: body → (Mode.after .star body).isComment = true) := by
  induction body with
  | nil => exact ⟨fun _ => rfl, fun _ => rfl⟩
  | cons d r ih =>
    have hstep : ¬ "*/".toList <:+: d :: r →
        (Mode.after (Mode.next .comment d) r).isComment = true := by
      intro h
      rw [Mode.next]
      split
      · next hd =>
        rw [hd] at h
        exact ih.2 h
      · exact ih.1 fun hi => h (List.infix_cons hi)
    refine ⟨hstep, ?_⟩
    intro h
    have hslash : d ≠ '/' := by
      rintro rfl
      exact h ⟨[], r, rfl⟩
    rw [Mode.after_cons, Mode.next, if_neg hslash]
    exact hstep fun hi => h (List.infix_cons hi)

/-- A complete comment leaves code behind. -/
theorem after_comment (h : comment? t = some (c, rest)) : Mode.after .code c = .code := by
  obtain ⟨body, rfl, -, hend⟩ := comment?_eq_some_iff.mp h
  have hopen : (Mode.after .comment body).isComment = true :=
    (isComment_after body).1 fun hi => hend (hi.trans (List.prefix_append _ _).isInfix)
  have hstart : Mode.after .code ("/*".toList ++ body) = Mode.after .comment body := rfl
  rw [Mode.after_append, hstart]
  rcases Mode.eq_comment_or_star hopen with h | h <;> rw [h] <;> rfl

/-! ## The text without comments -/

/-- The empty text has no comments to take out. -/
theorem stripComments_nil : stripComments [] = [] := by rw [stripComments]

/-- A complete comment is taken out. -/
theorem stripComments_of_comment (h : comment? t = some (c, rest)) :
    stripComments t = stripComments rest := by
  cases t with
  | nil => simp [comment?, after?] at h
  | cons d r =>
    rw [stripComments]
    split
    · next h' =>
      rw [h] at h'
      simp only [Option.some.injEq, Prod.mk.injEq] at h'
      rw [h'.2]
    · next h' => rw [h] at h'; simp at h'

/-- A character that starts no comment is kept. -/
theorem stripComments_cons {d : Char} (h : comment? (d :: t) = none) :
    stripComments (d :: t) = d :: stripComments t := by
  rw [stripComments]
  split
  · next h' => rw [h] at h'; simp at h'
  · rfl

/-- Text without a solidus in front of another text is kept. -/
theorem stripComments_append {u : Text} (h : '/' ∉ u) (t : Text) :
    stripComments (u ++ t) = u ++ stripComments t := by
  induction u with
  | nil => rfl
  | cons d r ih =>
    simp only [List.mem_cons, not_or] at h
    rw [List.cons_append, stripComments_cons (comment?_cons_ne (Ne.symm h.1) _), ih h.2]
    rfl

/-! ## The lead of a selector -/

/-- White space and complete comments. -/
inductive Lead : Text → Prop
  | nil : Lead []
  | blank {d : Char} {t : Text} : isBlank d = true → Lead t → Lead (d :: t)
  | comment {c t : Text} : comment? c = some (c, []) → Lead t → Lead (c ++ t)

/-- What is cut off the front of a text is white space and comments. -/
theorem lead_cutLead (t : Text) : Lead (cutLead t).1 := by
  fun_induction cutLead t with
  | case1 => exact .nil
  | case2 d r hd p ih => exact .blank hd ih
  | case3 d r hd comment rest h p ih =>
    have hc := comment?_append h []
    rw [List.append_nil] at hc
    exact .comment hc ih
  | case4 => exact .nil

/-- A comment in front is cut off, and so is what leads behind it. -/
theorem cutLead_of_comment (h : comment? t = some (c, rest)) :
    cutLead t = (c ++ (cutLead rest).1, (cutLead rest).2) := by
  cases t with
  | nil => simp [comment?, after?] at h
  | cons d r =>
    have hd : isBlank d = false := by
      by_contra hb
      rw [comment?_cons_blank (by simpa using hb)] at h
      simp at h
    rw [cutLead, if_neg (by simp [hd])]
    split
    · next h' =>
      rw [h, Option.some.injEq, Prod.mk.injEq] at h'
      rw [h'.1, h'.2]
    · next h' => rw [h] at h'; simp at h'

/-- A text that starts with neither white space nor a complete comment has no lead. -/
theorem cutLead_eq_self (hhead : ∀ d ∈ t.head?, isBlank d = false) (hcom : comment? t = none) :
    cutLead t = ([], t) := by
  cases t with
  | nil => rw [cutLead]
  | cons d r =>
    rw [cutLead, if_neg (by simp [hhead d (by simp)])]
    split
    · next h' => rw [hcom] at h'; simp at h'
    · rfl

/-- White space and complete comments in front of a text belong to its lead. -/
theorem Lead.cutLead_append {u : Text} (h : Lead u) (t : Text) :
    cutLead (u ++ t) = (u ++ (cutLead t).1, (cutLead t).2) := by
  induction h with
  | nil => rfl
  | blank hd _ ih => rw [List.cons_append, cutLead, if_pos hd, ih]; rfl
  | comment hc _ ih =>
    rw [List.append_assoc, cutLead_of_comment (comment?_append hc _), ih, List.append_assoc]

/-- Nothing follows the lead just if the text is white space and complete comments. -/
theorem cutLead_snd_eq_nil_iff : (cutLead t).2 = [] ↔ Lead t := by
  constructor
  · intro h
    have happ := cutLead_append t
    rw [h, List.append_nil] at happ
    exact happ ▸ lead_cutLead t
  · intro h
    have hcut := h.cutLead_append []
    rw [List.append_nil] at hcut
    rw [hcut, cutLead]

/-- What follows the lead does not start with white space. -/
theorem head_cutLead (t : Text) : ∀ d ∈ (cutLead t).2.head?, isBlank d = false := by
  fun_induction cutLead t with
  | case1 => simp
  | case2 _ _ _ _ ih => exact ih
  | case3 _ _ _ _ _ _ _ ih => exact ih
  | case4 d r hd _ => simpa using hd

/-- What follows the lead does not start with a complete comment. -/
theorem comment?_cutLead (t : Text) : comment? (cutLead t).2 = none := by
  fun_induction cutLead t with
  | case1 => rfl
  | case2 _ _ _ _ ih => exact ih
  | case3 _ _ _ _ _ _ _ ih => exact ih
  | case4 _ _ _ h => exact h

/-- The lead of a selector leaves code behind. -/
theorem after_lead (t : Text) : Mode.after .code (cutLead t).1 = .code := by
  fun_induction cutLead t with
  | case1 => rfl
  | case2 d r hd p ih =>
    have hcode : Mode.next .code d = .code := by
      rw [Mode.next, Mode.afterCode, if_neg, if_neg]
      · rintro (rfl | rfl) <;> exact absurd hd (by decide)
      · rintro rfl
        exact absurd hd (by decide)
    simpa [hcode] using ih
  | case3 d r hd comment rest h p ih =>
    rw [Mode.after_append, after_comment h]
    exact ih
  | case4 => rfl

/-- Of the lead, taking out comments leaves white space only, whatever follows. -/
theorem stripComments_lead (t : Text) :
    ∃ u, Blank u ∧ ∀ x, stripComments ((cutLead t).1 ++ x) = u ++ stripComments x := by
  fun_induction cutLead t with
  | case1 => exact ⟨[], blank_nil, fun x => rfl⟩
  | case2 d r hd p ih =>
    obtain ⟨u, hu, h⟩ := ih
    refine ⟨d :: u, blank_cons.mpr ⟨hd, hu⟩, ?_⟩
    intro x
    rw [List.cons_append, stripComments_cons (comment?_cons_blank hd _), h]
    rfl
  | case3 d r hd comment rest h p ih =>
    obtain ⟨u, hu, hx⟩ := ih
    refine ⟨u, hu, ?_⟩
    intro x
    rw [List.append_assoc, stripComments_of_comment (comment?_append h _), hx]
  | case4 => exact ⟨[], blank_nil, fun x => rfl⟩

end StyleSnippet.Css
