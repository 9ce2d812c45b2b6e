import Mathlib.Data.List.Infix
import StyleSnippet.Proofs.Text.Lines
import StyleSnippet.Text.Pattern

/-!
# Splitting a text at the occurrences of a pattern

Where a text is split is known from where the pattern matches: a stretch of text in which no
match starts is passed over, and a match is taken off. A pattern occurs in a text just when it
matches some end of it.
-/

set_option autoImplicit false

namespace StyleSnippet.Pattern

variable {α : Type} (p : Pattern α)

/-- Puts a text in front of a split text. -/
def prepend (u : Text) (s : List (Occurrence α) × Text) : List (Occurrence α) × Text :=
  u.foldr extend s

/-- Nothing is put in front. -/
@[simp] theorem prepend_nil (s : List (Occurrence α) × Text) : prepend [] s = s := rfl

/-- Text in front of an occurrence is text before it. -/
@[simp] theorem prepend_cons (u : Text) (o : Occurrence α) (os : List (Occurrence α))
    (rest : Text) :
    prepend u (o :: os, rest) = ({ o with before := u ++ o.before } :: os, rest) := by
  induction u with
  | nil => rfl
  | cons c r ih =>
    have h : prepend (c :: r) (o :: os, rest) = extend c (prepend r (o :: os, rest)) := rfl
    rw [h, ih]
    rfl

/-- Text in front of a text without occurrences. -/
@[simp] theorem prepend_none (u rest : Text) :
    prepend u (([] : List (Occurrence α)), rest) = ([], u ++ rest) := by
  induction u with
  | nil => rfl
  | cons c r ih =>
    have h : prepend (c :: r) (([] : List (Occurrence α)), rest) =
        extend c (prepend r ([], rest)) := rfl
    rw [h, ih]
    rfl

/-- Nothing matches the empty text. -/
theorem match?_nil : p.match? [] = none := by
  cases h : p.match? [] with
  | none => rfl
  | some m =>
    obtain ⟨a, w, r⟩ := m
    obtain ⟨he, hw⟩ := p.sound h
    exact absurd (List.append_eq_nil_iff.mp he.symm).1 hw

/-- A match at the start of a text is its first occurrence. -/
theorem split_of_match {t w r : Text} {a : α} (h : p.match? t = some (a, w, r)) :
    p.split t = (⟨[], a, w⟩ :: (p.split r).1, (p.split r).2) := by
  cases t with
  | nil => rw [p.match?_nil] at h; simp at h
  | cons c t =>
    rw [split]
    split
    · next a' w' r' h' =>
      rw [h] at h'
      simp only [Option.some.injEq, Prod.mk.injEq] at h'
      obtain ⟨rfl, rfl, rfl⟩ := h'
      rfl
    · next h' => rw [h] at h'; simp at h'

/-- A character at which no match starts is passed over. -/
theorem split_cons_of_none {c : Char} {t : Text} (h : p.match? (c :: t) = none) :
    p.split (c :: t) = extend c (p.split t) := by
  rw [split]
  split
  · next h' => rw [h] at h'; simp at h'
  · rfl

/-- A stretch of text in which no match starts is passed over. -/
theorem split_append {u v : Text}
    (h : ∀ s r, u = s ++ r → r ≠ [] → p.match? (r ++ v) = none) :
    p.split (u ++ v) = prepend u (p.split v) := by
  induction u with
  | nil => rfl
  | cons c u ih =>
    have hc : p.match? (c :: (u ++ v)) = none := h [] (c :: u) rfl (by simp)
    have hu : ∀ s r, u = s ++ r → r ≠ [] → p.match? (r ++ v) = none := by
      intro s r hr hne
      exact h (c :: s) r (by rw [hr]; rfl) hne
    rw [List.cons_append, p.split_cons_of_none hc, ih hu]
    rfl

/-- A text that no occurrence begins in is not cut. -/
theorem split_eq_none {t : Text} (h : ∀ s r, t = s ++ r → r ≠ [] → p.match? r = none) :
    p.split t = ([], t) := by
  have hs := p.split_append (u := t) (v := []) (by simpa using h)
  simpa [split] using hs

/-- Occurrences of a pattern start with a mark, which a given character is not in. -/
structure Marked (p : Pattern α) (c : Char) (mark : Text → Prop) : Prop where
  ne_nil : ∀ n, mark n → n ≠ []
  not_mem : ∀ n, mark n → c ∉ n
  mark_prefix : ∀ {t : Text} {m : α × Text × Text}, p.match? t = some m → ∃ n, mark n ∧ n <+: t

section Marked

variable {p} {c : Char} {mark : Text → Prop} {g t : Text}

/-- The character that no mark holds starts no occurrence. -/
theorem Marked.split_cons (h : p.Marked c mark) (t : Text) :
    p.split (c :: t) = extend c (p.split t) := by
  apply p.split_cons_of_none
  cases hm : p.match? (c :: t) with
  | none => rfl
  | some m =>
    obtain ⟨n, hn, hp⟩ := h.mark_prefix hm
    obtain ⟨d, r, rfl⟩ := List.exists_cons_of_ne_nil (h.ne_nil n hn)
    rw [List.cons_prefix_cons] at hp
    exact absurd (by simp [hp.1]) (h.not_mem _ hn)

/-- Text without a mark goes in front of what is split behind it, if that starts with the character
that no mark holds. -/
theorem Marked.split_append (h : p.Marked c mark) (hg : ∀ n, mark n → ¬ n <:+: g)
    (ht : t = [] ∨ ∃ r, t = c :: r) : p.split (g ++ t) = prepend g (p.split t) := by
  apply p.split_append
  intro s r hsplit _
  cases hm : p.match? (r ++ t) with
  | none => rfl
  | some m =>
    obtain ⟨n, hn, hp⟩ := h.mark_prefix hm
    have hr : n <+: r := by
      rcases ht with rfl | ⟨x, rfl⟩
      · rwa [List.append_nil] at hp
      · exact Text.prefix_of_prefix_append_cons (h.not_mem n hn) hp
    exact absurd (hr.isInfix.trans ⟨s, [], by simp [hsplit]⟩) (hg n hn)

/-- Text without a mark holds no occurrence. -/
theorem Marked.split_eq (h : p.Marked c mark) (hg : ∀ n, mark n → ¬ n <:+: g) :
    p.split g = ([], g) := by
  have hsplit := h.split_append hg (Or.inl rfl)
  simpa [split] using hsplit

end Marked

/-- A pattern occurs in a text just when it matches some end of it. -/
theorem occursIn_iff {t : Text} :
    p.occursIn t = true ↔ ∃ r, r <:+ t ∧ ∃ m, p.match? r = some m := by
  constructor
  · intro h
    by_contra hn
    have hnone : ∀ s r, t = s ++ r → r ≠ [] → p.match? r = none := by
      intro s r hr _
      cases hm : p.match? r with
      | none => rfl
      | some m => exact absurd ⟨r, ⟨s, hr.symm⟩, m, hm⟩ hn
    rw [occursIn, p.split_eq_none hnone] at h
    simp at h
  · rintro ⟨r, ⟨s, rfl⟩, m, hm⟩
    induction s with
    | nil =>
      rw [List.nil_append, occursIn, p.split_of_match (a := m.1) (w := m.2.1) (r := m.2.2) hm]
      rfl
    | cons c s ih =>
      rw [occursIn, List.cons_append]
      cases hc : p.match? (c :: (s ++ r)) with
      | some m' =>
        rw [p.split_of_match (a := m'.1) (w := m'.2.1) (r := m'.2.2) hc]
        rfl
      | none =>
        rw [p.split_cons_of_none hc]
        rw [occursIn] at ih
        cases hp : p.split (s ++ r) with
        | mk os rest =>
          rw [hp] at ih
          cases os with
          | nil => simp at ih
          | cons o os => rfl

/-- Whether a pattern occurs in a text can be found out by trying each end of it. -/
theorem occursIn_eq_any_tails (t : Text) :
    p.occursIn t = t.tails.any fun r => (p.match? r).isSome := by
  rw [Bool.eq_iff_iff, p.occursIn_iff, List.any_eq_true]
  simp only [List.mem_tails, Option.isSome_iff_exists]

/-- Each occurrence is matched somewhere. -/
theorem exists_match?_of_mem (t : Text) :
    ∀ o ∈ (p.split t).1, ∃ s r, p.match? s = some (o.value, o.written, r) := by
  fun_induction split p t with
  | case1 => simp
  | case2 c r a written rest hm s ih => exact List.forall_mem_cons.mpr ⟨⟨_, _, hm⟩, ih⟩
  | case3 c r hm ih =>
    cases hs : p.split r with
    | mk os rest =>
      rw [hs] at ih
      cases os with
      | nil => simp [extend]
      | cons o os =>
        obtain ⟨ho, hos⟩ := List.forall_mem_cons.mp ih
        exact List.forall_mem_cons.mpr ⟨ho, hos⟩

end StyleSnippet.Pattern
