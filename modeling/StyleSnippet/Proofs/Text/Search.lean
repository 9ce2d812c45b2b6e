import Mathlib.Data.List.Infix
import StyleSnippet.Text.Basic

/-!
# Where one text occurs in another

The searches of the library are told here by the relations of lists: `after?` by prefixes,
`cutFirst?` and `contains` by infixes. The one fact with content is `cutFirst?_eq`: a cut is at
the first occurrence as soon as the text in front of it, run on into the needle by all of it but
its last character, holds no other.
-/

set_option autoImplicit false

namespace StyleSnippet.Text

variable {n s t u : Text}

/-! ## Prefixes -/

/-- Behind a text stands what was put there. -/
@[simp] theorem after?_append (s t : Text) : after? s (s ++ t) = some t := by
  induction s with
  | nil => rfl
  | cons c r ih => simpa [after?] using ih

/-- What follows a prefix is told just when it is one. -/
theorem after?_eq_some_iff : after? s t = some u ↔ t = s ++ u := by
  constructor
  · exact eq_append_of_after?
  · rintro rfl
    exact after?_append s u

/-- Nothing follows a prefix just when it is none. -/
theorem after?_eq_none_iff : after? s t = none ↔ ¬ s <+: t := by
  rw [Option.eq_none_iff_forall_ne_some]
  constructor
  · rintro h ⟨r, rfl⟩
    exact h r (after?_append s r)
  · intro h r hr
    exact h ⟨r, (eq_append_of_after? hr).symm⟩

/-- A text does not start as another one with another first character. -/
theorem after?_cons_ne {c d : Char} (h : c ≠ d) (s t : Text) : after? (c :: s) (d :: t) = none := by
  simp [after?, h]

/-! ## Infixes -/

/-- An infix without a given character lies on one side of that character. -/
theorem infix_append_cons {c : Char} (hc : c ∉ n) :
    n <:+: s ++ c :: t ↔ n <:+: s ∨ n <:+: t := by
  constructor
  · rintro ⟨a, b, h⟩
    rw [List.append_assoc] at h
    rcases List.append_eq_append_iff.mp h with ⟨x, hs, hx⟩ | ⟨x, ha, hx⟩
    · rcases List.append_eq_append_iff.mp hx with ⟨y, hy, -⟩ | ⟨y, hy, hz⟩
      · left
        exact ⟨a, y, by rw [hs, hy, List.append_assoc]⟩
      · cases y with
        | nil =>
          left
          exact ⟨a, [], by simp [hs, hy]⟩
        | cons d y =>
          rw [List.cons_append, List.cons.injEq] at hz
          exact absurd (by simp [hy, hz.1]) hc
    · cases x with
      | nil =>
        cases n with
        | nil => left; exact List.nil_infix
        | cons d n =>
          rw [List.nil_append, List.cons_append, List.cons.injEq] at hx
          exact absurd (by simp [hx.1]) hc
      | cons d x =>
        rw [List.cons_append, List.cons.injEq] at hx
        right
        exact ⟨x, b, by rw [List.append_assoc]; exact hx.2.symm⟩
  · rintro (h | h)
    · exact h.trans (List.prefix_append s (c :: t)).isInfix
    · exact h.trans ((List.suffix_cons c t).trans (List.suffix_append s (c :: t))).isInfix

/-- An infix does not start in a text that its first character is not in. -/
theorem infix_append_of_head {c : Char} {r : Text} (hc : c ∉ s) (h : c :: r <:+: s ++ t) :
    c :: r <:+: t := by
  obtain ⟨a, b, h⟩ := h
  rw [List.append_assoc] at h
  rcases List.append_eq_append_iff.mp h with ⟨x, hs, hx⟩ | ⟨x, -, hx⟩
  · cases x with
    | nil => exact ⟨[], b, by simpa using hx⟩
    | cons d x =>
      rw [List.cons_append, List.cons_append, List.cons.injEq] at hx
      exact absurd (by simp [hs, hx.1]) hc
  · exact ⟨x, b, by rw [List.append_assoc]; exact hx.symm⟩

/-- A prefix without a given character lies in front of that character. -/
theorem prefix_of_prefix_append_cons {c : Char} (hc : c ∉ n) (h : n <+: s ++ c :: t) : n <+: s := by
  induction s generalizing n with
  | nil =>
    cases n with
    | nil => exact List.nil_prefix
    | cons d n =>
      rw [List.nil_append, List.cons_prefix_cons] at h
      exact absurd (by simp [h.1]) hc
  | cons d s ih =>
    cases n with
    | nil => exact List.nil_prefix
    | cons e n =>
      rw [List.cons_append, List.cons_prefix_cons] at h
      rw [List.cons_prefix_cons]
      exact ⟨h.1, ih (fun hm => hc (List.mem_cons_of_mem e hm)) h.2⟩

/-! ## The first occurrence -/

/-- A text, and behind it another one short of its last character, is in front of both. -/
theorem append_dropLast_isPrefix (n s t : Text) : s ++ n.dropLast <+: s ++ n ++ t :=
  ((List.prefix_append_right_inj s).mpr (List.dropLast_prefix n)).trans (List.prefix_append _ t)

/-- The text before the first occurrence and the text after it. -/
theorem cutFirst?_eq (hn : n ≠ []) (h : ¬ n <:+: s ++ n.dropLast) (t : Text) :
    cutFirst? n (s ++ n ++ t) = some (s, t) := by
  induction s with
  | nil =>
    cases n with
    | nil => exact absurd rfl hn
    | cons c r =>
      have ha := after?_append (c :: r) t
      rw [List.nil_append]
      simp only [List.cons_append] at ha ⊢
      rw [cutFirst?, ha]
  | cons c r ih =>
    have hnone : after? n (c :: (r ++ n ++ t)) = none := by
      rw [after?_eq_none_iff]
      intro hp
      have hpre : n <+: c :: r ++ n.dropLast := by
        apply List.prefix_of_prefix_length_le hp (append_dropLast_isPrefix n (c :: r) t)
        have := List.length_pos_iff.mpr hn
        simp only [List.length_append, List.length_cons, List.length_dropLast]
        omega
      exact h hpre.isInfix
    have hr : ¬ n <:+: r ++ n.dropLast := by
      intro hi
      exact h (List.infix_cons hi)
    simp only [List.cons_append]
    rw [cutFirst?, hnone]
    rw [ih hr]
    rfl

/-- A text that holds another one is cut by it. -/
theorem exists_cutFirst? (h : n <:+: t) : ∃ p, cutFirst? n t = some p := by
  induction t with
  | nil =>
    rw [List.infix_nil] at h
    subst h
    exact ⟨([], []), rfl⟩
  | cons c r ih =>
    rw [cutFirst?]
    cases ha : after? n (c :: r) with
    | some rest => exact ⟨_, rfl⟩
    | none =>
      rcases List.infix_cons_iff.mp h with hp | hi
      · exact absurd hp (after?_eq_none_iff.mp ha)
      · obtain ⟨p, hp⟩ := ih hi
        exact ⟨_, by rw [hp]; rfl⟩

/-- A cut is at the first occurrence: the text in front of it, run on into the needle, holds no
other. -/
theorem cutFirst?_eq_some_iff {a b : Text} (hn : n ≠ []) :
    cutFirst? n t = some (a, b) ↔ t = a ++ n ++ b ∧ ¬ n <:+: a ++ n.dropLast := by
  constructor
  · intro h
    refine ⟨eq_of_cutFirst? h, ?_⟩
    induction t generalizing a with
    | nil =>
      cases n with
      | nil => exact absurd rfl hn
      | cons c r => simp [cutFirst?, after?] at h
    | cons c r ih =>
      rw [cutFirst?] at h
      cases ha : after? n (c :: r) with
      | some rest =>
        rw [ha] at h
        simp only [Option.some.injEq, Prod.mk.injEq] at h
        rw [← h.1, List.nil_append]
        intro hi
        have hlen := hi.length_le
        have hpos := List.length_pos_iff.mpr hn
        rw [List.length_dropLast] at hlen
        omega
      | none =>
        rw [ha] at h
        simp only [Option.map_eq_some_iff, Prod.mk.injEq] at h
        obtain ⟨p, hp, rfl, rfl⟩ := h
        intro hi
        rcases List.infix_cons_iff.mp hi with hpre | hi
        · -- An occurrence at the start would have been the first one.
          have hr : c :: (p.1 ++ n.dropLast) <+: c :: r := by
            rw [eq_of_cutFirst? hp]
            exact append_dropLast_isPrefix n (c :: p.1) p.2
          exact after?_eq_none_iff.mp ha (hpre.trans hr)
        · exact ih hp hi
  · rintro ⟨rfl, h⟩
    exact cutFirst?_eq hn h b

/-- In front of an occurrence there is no other one just if no shorter text stands in front of
one. -/
theorem not_infix_dropLast_iff (hn : n ≠ []) : ¬ n <:+: s ++ n.dropLast ↔
    ∀ x, x ++ n <+: s ++ n ++ t → s.length ≤ x.length := by
  have hpos := List.length_pos_iff.mpr hn
  have hfront : s ++ n.dropLast <+: s ++ n ++ t := by
    rw [List.append_assoc, List.prefix_append_right_inj]
    exact (List.dropLast_prefix n).trans (List.prefix_append n t)
  constructor
  · intro h x hx
    by_contra hlt
    have hshort : x ++ n <+: s ++ n.dropLast := by
      apply List.prefix_of_prefix_length_le hx hfront
      simp only [List.length_append, List.length_dropLast]
      omega
    exact h ((List.suffix_append x n).isInfix.trans hshort.isInfix)
  · rintro h ⟨a, b, hab⟩
    have ha := h a ((List.prefix_append (a ++ n) b).trans (hab ▸ hfront))
    have hlen := congrArg List.length hab
    simp only [List.length_append, List.length_dropLast] at hlen
    omega

/-- Whether a text contains another one. -/
theorem contains_iff : contains n t = true ↔ n <:+: t := by
  rw [contains, Option.isSome_iff_exists]
  constructor
  · rintro ⟨⟨a, b⟩, h⟩
    exact ⟨a, b, (eq_of_cutFirst? h).symm⟩
  · exact exists_cutFirst?

end StyleSnippet.Text
