import StyleSnippet.Proofs.Text.Search
import StyleSnippet.Proofs.Text.Trim

/-!
# Texts that differ in white space

Two texts are `Relaid` if one becomes the other by putting other white space in the place of
white space, a line feed in it only where one was before. No white space appears or vanishes
altogether, so whatever is read of a text without regard to which white space stands in it is read
the same of both.

Text that does not hold white space occurs in both texts, and cuts them, at the same places.
-/

set_option autoImplicit false

namespace StyleSnippet.Text

/-- The texts are the same but for which white space stands in them. -/
inductive Relaid : Text → Text → Prop
  | nil : Relaid [] []
  | ink (c : Char) {s t : Text} : isBlank c = false → Relaid s t → Relaid (c :: s) (c :: t)
  | gap {u v s t : Text} : Blank u → Blank v → u ≠ [] → v ≠ [] → ('\n' ∈ u ↔ '\n' ∈ v) →
    Relaid s t → Relaid (u ++ s) (v ++ t)

namespace Relaid

variable {s t u v s' t' : Text}

/-! ## Putting relaid texts together -/

/-- A text is laid out as itself. -/
theorem refl (s : Text) : Relaid s s := by
  induction s with
  | nil => exact .nil
  | cons c r ih =>
    by_cases hc : isBlank c = true
    · have hb : Blank [c] := by simp [hc]
      exact .gap hb hb (by simp) (by simp) Iff.rfl ih
    · exact .ink c (by simpa using hc) ih

/-- If one text is another one laid out anew, so is the other way around. -/
theorem symm (h : Relaid s t) : Relaid t s := by
  induction h with
  | nil => exact .nil
  | ink c hc _ ih => exact .ink c hc ih
  | gap hu hv hu' hv' hfeed _ ih => exact .gap hv hu hv' hu' hfeed.symm ih

/-- Texts can be laid out anew part by part. -/
theorem append (h : Relaid s t) (h' : Relaid s' t') : Relaid (s ++ s') (t ++ t') := by
  induction h with
  | nil => exact h'
  | ink c hc _ ih => exact .ink c hc ih
  | gap hu hv hu' hv' hfeed _ ih =>
    rw [List.append_assoc, List.append_assoc]
    exact .gap hu hv hu' hv' hfeed ih

/-- White space is as good as any other, line feeds aside. -/
theorem of_blank (hu : Blank u) (hv : Blank v) (hu' : u ≠ []) (hv' : v ≠ [])
    (hfeed : '\n' ∈ u ↔ '\n' ∈ v) : Relaid u v := by
  simpa using Relaid.gap hu hv hu' hv' hfeed .nil

/-- Texts that differ in white space do so from their ends, too. -/
theorem reverse (h : Relaid s t) : Relaid s.reverse t.reverse := by
  induction h with
  | nil => exact .nil
  | ink c _ _ ih =>
    rw [List.reverse_cons, List.reverse_cons]
    exact ih.append (refl [c])
  | gap hu hv hu' hv' hfeed _ ih =>
    rw [List.reverse_append, List.reverse_append]
    apply ih.append
    apply of_blank (blank_reverse.mpr hu) (blank_reverse.mpr hv)
    · simpa using hu'
    · simpa using hv'
    · simpa using hfeed

/-- More white space goes where a line feed is. -/
theorem absorb (h : Relaid s ('\n' :: t)) (hu : Blank u) : Relaid (u ++ s) ('\n' :: t) := by
  generalize hx : '\n' :: t = x at h
  cases h with
  | nil => simp at hx
  | ink d hd _ =>
    rw [List.cons.injEq] at hx
    rw [← hx.1] at hd
    exact absurd hd (by decide)
  | @gap u' v s t hu' hv hne hv' hfeed h =>
    have hmem : '\n' ∈ v := by
      obtain ⟨d, v, rfl, -, -⟩ := hv.exists_cons hv'
      rw [List.cons_append, List.cons.injEq] at hx
      simp [← hx.1]
    rw [← List.append_assoc]
    refine .gap (by simp [hu, hu']) hv (by simp [hne]) hv' ?_ h
    simp [hmem, hfeed.mpr hmem]

/-! ## What relaid texts have in common -/

/-- An empty text is laid out as the empty text alone. -/
theorem eq_nil_iff (h : Relaid s t) : s = [] ↔ t = [] := by
  cases h with
  | nil => simp
  | ink => simp
  | gap _ _ hu hv _ _ => simp [hu, hv]

/-- A text that starts with no white space starts in the same way when it is relaid. -/
theorem cons_inv {c : Char} (hc : isBlank c = false) (h : Relaid (c :: s) t) :
    ∃ t', t = c :: t' ∧ Relaid s t' := by
  generalize hx : c :: s = x at h
  cases h with
  | nil => simp at hx
  | ink d _ h =>
    rw [List.cons.injEq] at hx
    obtain ⟨rfl, rfl⟩ := hx
    exact ⟨_, rfl, h⟩
  | @gap u v _ _ hu _ hu' _ _ _ =>
    obtain ⟨d, u, rfl, hd, -⟩ := hu.exists_cons hu'
    rw [List.cons_append, List.cons.injEq] at hx
    rw [hx.1, hd] at hc
    simp at hc

/-- The character that a relaid text starts with is the same, or white space as before. -/
theorem head_class {p : Char → Bool} (hp : ∀ c, isBlank c = true → p c = true) (h : Relaid s t) :
    s.head?.all p = t.head?.all p := by
  cases h with
  | nil => rfl
  | ink => rfl
  | @gap u v _ _ hu hv hu' hv' _ _ =>
    obtain ⟨c, u, rfl, hc, -⟩ := hu.exists_cons hu'
    obtain ⟨d, v, rfl, hd, -⟩ := hv.exists_cons hv'
    simp [hp _ hc, hp _ hd]

/-- What the first characters of a kind are, if the kind leaves out white space. -/
theorem takeWhile_eq {p : Char → Bool} (hp : ∀ c, isBlank c = true → p c = false)
    (h : Relaid s t) : s.takeWhile p = t.takeWhile p := by
  induction h with
  | nil => rfl
  | ink c _ _ ih => rw [List.takeWhile_cons, List.takeWhile_cons, ih]
  | @gap u v _ _ hu hv hu' hv' _ _ _ =>
    obtain ⟨c, u, rfl, hc, -⟩ := hu.exists_cons hu'
    obtain ⟨d, v, rfl, hd, -⟩ := hv.exists_cons hv'
    simp [hp _ hc, hp _ hd]

/-- White space stays white space. -/
theorem blank_iff (h : Relaid s t) : Blank s ↔ Blank t := by
  induction h with
  | nil => exact Iff.rfl
  | ink c hc _ _ => simp [hc]
  | gap hu hv _ _ _ _ ih => simp [hu, hv, ih]

/-- A text on one line stays on one. -/
theorem feed_iff (h : Relaid s t) : '\n' ∈ s ↔ '\n' ∈ t := by
  induction h with
  | nil => exact Iff.rfl
  | ink c _ _ ih => simp [ih]
  | gap _ _ _ _ hfeed _ ih => simp [hfeed, ih]

/-- White space at the start can be dropped of both texts. -/
theorem trimStart (h : Relaid s t) : Relaid (trimStart s) (trimStart t) := by
  induction h with
  | nil => exact .nil
  | ink c hc h _ =>
    have hkeep (r : Text) : Text.trimStart (c :: r) = c :: r := by
      rw [Text.trimStart, List.dropWhile_cons_of_neg (by simp [hc])]
    rw [hkeep, hkeep]
    exact .ink c hc h
  | gap hu hv _ _ _ _ ih =>
    rw [Text.trimStart, Text.trimStart, dropWhile_blank_append hu, dropWhile_blank_append hv]
    exact ih

/-- White space at the two ends can be dropped of both texts. -/
theorem trim (h : Relaid s t) : Relaid (trim s) (trim t) :=
  h.trimStart.reverse.trimStart.reverse

/-! ## Text without white space -/

variable {n a b : Text}

/-- A relaid text falls apart at the same character. -/
theorem append_cons_inv {c : Char} (hc : isBlank c = false) (h : Relaid (a ++ c :: b) t) :
    ∃ a' b', t = a' ++ c :: b' ∧ Relaid a a' ∧ Relaid b b' := by
  generalize hx : a ++ c :: b = x at h
  induction h generalizing a with
  | nil => simp at hx
  | @ink d s t hd h ih =>
    cases a with
    | nil =>
      rw [List.nil_append, List.cons.injEq] at hx
      obtain ⟨rfl, rfl⟩ := hx
      exact ⟨[], t, rfl, .nil, h⟩
    | cons e a =>
      rw [List.cons_append, List.cons.injEq] at hx
      obtain ⟨rfl, hx⟩ := hx
      obtain ⟨a', b', rfl, ha, hb⟩ := ih hx
      exact ⟨e :: a', b', rfl, .ink e hd ha, hb⟩
  | @gap u v s t hu hv hu' hv' hfeed h ih =>
    rcases List.append_eq_append_iff.mp hx with ⟨x, hua, hxs⟩ | ⟨x, hau, hxs⟩
    · -- the character would lie in the white space
      cases x with
      | nil =>
        rw [List.append_nil] at hua
        obtain ⟨a', b', rfl, ha, hb⟩ := ih (a := []) (by simpa using hxs)
        refine ⟨v ++ a', b', by simp, ?_, hb⟩
        have hnil : a' = [] := ha.eq_nil_iff.mp rfl
        rw [← hua, hnil, List.append_nil]
        exact of_blank hu hv hu' hv' hfeed
      | cons e x =>
        rw [List.cons_append, List.cons.injEq] at hxs
        have hb : isBlank c = true := hu c (by simp [hua, hxs.1])
        rw [hb] at hc
        simp at hc
    · obtain ⟨a', b', rfl, ha, hb⟩ := ih (a := x) hxs.symm
      exact ⟨v ++ a', b', by simp, hau ▸ .gap hu hv hu' hv' hfeed ha, hb⟩

/-- Text without white space that a text starts with is there when it is relaid. -/
theorem solid_append_inv (hn : Solid n) (h : Relaid (n ++ b) t) :
    ∃ b', t = n ++ b' ∧ Relaid b b' := by
  induction n generalizing t with
  | nil => exact ⟨t, rfl, h⟩
  | cons c n ih =>
    obtain ⟨hc, hn⟩ := solid_cons.mp hn
    obtain ⟨t', rfl, h'⟩ := cons_inv hc h
    obtain ⟨b', rfl, hb⟩ := ih hn h'
    exact ⟨b', rfl, hb⟩

/-- A relaid text falls apart at the same text without white space. -/
theorem append_inv (hn : Solid n) (hne : n ≠ []) (h : Relaid (a ++ n ++ b) t) :
    ∃ a' b', t = a' ++ n ++ b' ∧ Relaid a a' ∧ Relaid b b' := by
  cases n with
  | nil => exact absurd rfl hne
  | cons c n =>
    rw [List.append_assoc, List.cons_append] at h
    obtain ⟨hc, hn⟩ := solid_cons.mp hn
    obtain ⟨a', b', rfl, ha, hb⟩ := append_cons_inv hc h
    obtain ⟨b'', rfl, hb'⟩ := solid_append_inv hn hb
    exact ⟨a', b'', by simp, ha, hb'⟩

/-- Text without white space occurs where it did. -/
theorem infix_iff (hn : Solid n) (hne : n ≠ []) (h : Relaid s t) :
    n <:+: s ↔ n <:+: t := by
  have hone : ∀ {s t : Text}, Relaid s t → n <:+: s → n <:+: t := by
    rintro s t h ⟨a, b, rfl⟩
    obtain ⟨a', b', rfl, -, -⟩ := append_inv hn hne h
    exact ⟨a', b', rfl⟩
  exact ⟨hone h, hone h.symm⟩

/-- Text without white space is followed by what it was followed by. -/
theorem after? (hn : Solid n) (h : Relaid s t) {r : Text}
    (hr : after? n s = some r) : ∃ r', Text.after? n t = some r' ∧ Relaid r r' := by
  rw [after?_eq_some_iff] at hr
  cases n with
  | nil =>
    rw [hr] at h
    exact ⟨t, rfl, h⟩
  | cons c n =>
    rw [hr] at h
    obtain ⟨a', r', rfl, ha, hr'⟩ := append_inv (a := []) hn (by simp) h
    rw [ha.eq_nil_iff.mp rfl, List.nil_append]
    exact ⟨r', after?_append _ _, hr'⟩

end Relaid

end StyleSnippet.Text
