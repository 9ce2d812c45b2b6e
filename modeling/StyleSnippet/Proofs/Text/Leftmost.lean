import StyleSnippet.Proofs.Text.Occurrence

/-!
# The leftmost occurrences

What it is to cut a text from the left, told apart from how it is done: nothing begins in the text
in front of the first occurrence, and the text behind that is cut in the same way. There is just one
way to cut a text so, and splitting at the occurrences of a pattern is that way, as soon as it is
known what begins where the pattern matches.
-/

set_option autoImplicit false

namespace StyleSnippet.Pattern

variable {α : Type}

/-- The text is cut at the leftmost occurrences, which do not overlap. What is looked for is told by
`Begins a w v`: the text `v` begins with an `a` that is written as `w`. -/
inductive Cuts (Begins : α → Text → Text → Prop) : Text → List (Occurrence α) → Text → Prop
  | none {t : Text} (nowhere : ∀ v, v <:+ t → ∀ a w, ¬ Begins a w v) : Cuts Begins t [] t
  | some {before written rest tail : Text} {a : α} {os : List (Occurrence α)}
      (here : Begins a written (written ++ rest))
      (first : ∀ v, v <:+ before → v ≠ [] → ∀ a' w, ¬ Begins a' w (v ++ (written ++ rest)))
      (more : Cuts Begins rest os tail) :
      Cuts Begins (before ++ (written ++ rest)) (⟨before, a, written⟩ :: os) tail

/-! ## Cutting and splitting -/

section Split

variable {p : Pattern α} {Begins : α → Text → Text → Prop} {t tail : Text}
  {os : List (Occurrence α)}
  (hp : ∀ t a w, Begins a w t ↔ ∃ rest, p.match? t = some (a, w, rest))
include hp

/-- Where nothing begins, nothing matches. -/
theorem match?_eq_none (ht : ∀ a w, ¬ Begins a w t) : p.match? t = none := by
  cases h : p.match? t with
  | none => rfl
  | some m => exact absurd ((hp t m.1 m.2.1).mpr ⟨m.2.2, h⟩) (ht m.1 m.2.1)

/-- A text that is cut at its leftmost occurrences is split there. -/
theorem split_of_cuts (h : Cuts Begins t os tail) : p.split t = (os, tail) := by
  induction h with
  | none nowhere =>
    apply p.split_eq_none
    rintro s r rfl -
    exact match?_eq_none hp (nowhere r (List.suffix_append s r))
  | @some before written rest tail a os here first _ ih =>
    have hbefore : ∀ s r, before = s ++ r → r ≠ [] →
        p.match? (r ++ (written ++ rest)) = none := by
      rintro s r rfl hr
      exact match?_eq_none hp (first r (List.suffix_append s r) hr)
    obtain ⟨rest', hmatch⟩ := (hp _ _ _).mp here
    obtain rfl := List.append_cancel_left (p.sound hmatch).1
    rw [p.split_append hbefore, p.split_of_match hmatch, ih, prepend_cons, List.append_nil]

/-- Where a text is split, it is cut at its leftmost occurrences. -/
theorem cuts_split (t : Text) : Cuts Begins t (p.split t).1 (p.split t).2 := by
  have hno {v : Text} (hv : p.match? v = Option.none) (a : α) (w : Text) : ¬ Begins a w v := by
    rw [hp, hv]
    simp
  fun_induction split p t with
  | case1 =>
    refine .none fun v hv => ?_
    rw [List.suffix_nil.mp hv]
    exact hno p.match?_nil
  | case2 c r a written rest h s ih =>
    obtain ⟨hsplit, -⟩ := p.sound h
    have hcut : Cuts Begins ([] ++ (written ++ rest)) (⟨[], a, written⟩ :: s.1) s.2 := by
      refine .some ((hp _ _ _).mpr ⟨rest, hsplit ▸ h⟩) ?_ ih
      intro v hv hne
      exact absurd (List.suffix_nil.mp hv) hne
    rw [hsplit]
    exact hcut
  | case3 c r h ih =>
    -- The character goes in front of the text before the first occurrence.
    revert ih
    generalize p.split r = s
    obtain ⟨os, tail⟩ := s
    intro ih
    cases ih with
    | none nowhere =>
      refine .none fun v hv => ?_
      rcases List.suffix_cons_iff.mp hv with rfl | hv
      · exact hno h
      · exact nowhere v hv
    | @some before written rest _ a _ here first more =>
      refine @Cuts.some α Begins (c :: before) written rest _ a _ here (fun v hv hne => ?_) more
      rcases List.suffix_cons_iff.mp hv with rfl | hv
      · exact hno h
      · exact first v hv hne

/-- There is one way to cut a text at the leftmost occurrences, which is where it is split. -/
theorem cuts_iff :
    Cuts Begins t os tail ↔ os = (p.split t).1 ∧ tail = (p.split t).2 := by
  constructor
  · intro h
    simp [split_of_cuts hp h]
  · rintro ⟨rfl, rfl⟩
    exact cuts_split hp t

end Split

end StyleSnippet.Pattern
