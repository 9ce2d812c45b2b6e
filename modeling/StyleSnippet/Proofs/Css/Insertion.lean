import StyleSnippet.Css.Mode
import StyleSnippet.Proofs.Text.Search
import StyleSnippet.Proofs.Text.Trim

/-!
# Putting a class into a stylesheet

Confining a stylesheet puts the scope class and a space in front of some of its characters, all
of them in code. `Insertion` says this of two texts, and keeps track of the mode that the text
is read in. Since the class is made of characters that no reader of CSS takes notice of, the
mode at the end stays the same, and so does whatever does not hold the class.
-/

set_option autoImplicit false

namespace StyleSnippet.Css

open Text

/-- The characters that some reader of CSS takes notice of, white space aside. -/
def notedChars : List Char :=
  ['/', '*', '"', '\'', '\\', '{', '}', ';', ',', '(', ')', '[', ']', '@']

/-- A character that stands for nothing but itself wherever code is read. -/
structure Inert (c : Char) : Prop where
  not_blank : isBlank c = false
  not_noted : c ∉ notedChars

/-- A class to confine to: a point and inert characters. -/
structure ScopeClass (scope : Text) : Prop where
  point : scope.head? = some '.'
  inert : ∀ c ∈ scope, Inert c

/-- Whether a character is inert can be computed. -/
instance (c : Char) : Decidable (Inert c) :=
  decidable_of_iff (isBlank c = false ∧ c ∉ notedChars)
    ⟨fun h => ⟨h.1, h.2⟩, fun h => ⟨h.not_blank, h.not_noted⟩⟩

/-- Whether a text is a class to confine to can be computed. -/
instance (scope : Text) : Decidable (ScopeClass scope) :=
  decidable_of_iff (scope.head? = some '.' ∧ ∀ c ∈ scope, Inert c)
    ⟨fun h => ⟨h.1, h.2⟩, fun h => ⟨h.point, h.inert⟩⟩

namespace Inert

variable {c : Char}

/-- An inert character is none of those that reading notes. -/
theorem ne {d : Char} (h : Inert c) (hd : d ∈ notedChars) : c ≠ d := by
  rintro rfl
  exact h.not_noted hd

/-- Code goes on as code behind an inert character. -/
theorem afterCode (h : Inert c) : Mode.afterCode c = .code := by
  rw [Mode.afterCode, if_neg (h.ne (by decide)), if_neg]
  rintro (hq | hq)
  · exact h.ne (by decide) hq
  · exact h.ne (by decide) hq

end Inert

/-- Inert text leaves code as code. -/
theorem after_code_inert {u : Text} (hu : ∀ c ∈ u, Inert c) : Mode.after .code u = .code := by
  induction u with
  | nil => rfl
  | cons c r ih =>
    obtain ⟨hc, hr⟩ := List.forall_mem_cons.mp hu
    rw [Mode.after_cons, Mode.next, hc.afterCode]
    exact ih hr

namespace ScopeClass

variable {scope : Text}

/-- A class is not empty. -/
theorem ne_nil (h : ScopeClass scope) : scope ≠ [] := by
  rintro rfl
  exact absurd h.point (by simp)

/-- A class holds no white space. -/
theorem solid (h : ScopeClass scope) : Text.Solid scope :=
  fun c hc => (h.inert c hc).not_blank

/-- A class starts with a point. -/
theorem exists_cons (h : ScopeClass scope) : ∃ r, scope = '.' :: r :=
  List.head?_eq_some_iff.mp h.point

/-- A class and a space leave code as code. -/
theorem after_code (h : ScopeClass scope) : Mode.after .code (scope ++ [' ']) = .code := by
  rw [Mode.after_append, after_code_inert h.inert]
  rfl

end ScopeClass

/-- The second text is the first one, read in the given mode, with the class and a space put in
front of some characters of code. -/
inductive Insertion (scope : Text) : Mode → Text → Text → Prop
  | nil (m : Mode) : Insertion scope m [] []
  | keep (m : Mode) (c : Char) {s t : Text} :
    Insertion scope (m.next c) s t → Insertion scope m (c :: s) (c :: t)
  | put (c : Char) {s t : Text} : isBlank c = false → Insertion scope .code (c :: s) t →
    Insertion scope .code (c :: s) (scope ++ ' ' :: t)

namespace Insertion

variable {scope s t s' t' : Text} {m : Mode}

/-- A class can be put in nowhere. -/
theorem refl (scope : Text) (m : Mode) (s : Text) : Insertion scope m s s := by
  induction s generalizing m with
  | nil => exact .nil m
  | cons c s ih => exact .keep m c (ih _)

/-- A class is put into two texts, one behind the other. -/
theorem append (h : Insertion scope m s t) (h' : Insertion scope (m.after s) s' t') :
    Insertion scope m (s ++ s') (t ++ t') := by
  induction h with
  | nil => exact h'
  | keep m c _ ih => exact .keep m c (ih h')
  | put c hc _ ih =>
    rw [List.append_assoc, List.cons_append]
    exact .put c hc (ih h')

/-- Insertions do not change what the text leaves open. -/
theorem after_eq (hs : ScopeClass scope) (h : Insertion scope m s t) : m.after t = m.after s := by
  induction h with
  | nil => rfl
  | keep m c _ ih => exact ih
  | put c _ _ ih =>
    rw [List.append_cons, Mode.after_append, hs.after_code]
    exact ih

/-- No character gets lost. -/
theorem sublist (h : Insertion scope m s t) : s.Sublist t := by
  induction h with
  | nil => exact List.Sublist.refl []
  | keep m c _ ih => exact ih.cons_cons c
  | put c _ _ ih =>
    rw [List.append_cons]
    exact ih.trans (List.sublist_append_right _ _)

/-- A text without points that starts the result starts the original, and what follows it there is
what follows it here with the class put in. -/
theorem of_append {n r : Text} (hs : ScopeClass scope) (hn : '.' ∉ n)
    (h : Insertion scope m s (n ++ r)) :
    ∃ r₀, s = n ++ r₀ ∧ Insertion scope (m.after n) r₀ r := by
  induction n generalizing m s with
  | nil => exact ⟨s, rfl, h⟩
  | cons d n ih =>
    rw [List.mem_cons, not_or] at hn
    generalize ht : d :: n ++ r = t at h
    cases h with
    | nil => cases ht
    | keep _ c h =>
      rw [List.cons_append, List.cons.injEq] at ht
      obtain ⟨rfl, rfl⟩ := ht
      obtain ⟨r₀, rfl, hr⟩ := ih hn.2 h
      exact ⟨r₀, rfl, hr⟩
    | put c _ _ =>
      obtain ⟨u, hu⟩ := hs.exists_cons
      rw [hu, List.cons_append, List.cons_append, List.cons.injEq] at ht
      exact absurd ht.1.symm hn.1

/-- A text without points, that starts with a character which is not inert and no space, occurs
in the result only where it occurs in the original. -/
theorem of_infix {a r n : Text} (hs : ScopeClass scope) (hne : n ≠ []) (hpoint : '.' ∉ n)
    (hhead : ∀ c ∈ n.head?, c ≠ ' ' ∧ ¬ Inert c) (h : Insertion scope m s (a ++ (n ++ r))) :
    ∃ a₀ r₀ m₀, s = a₀ ++ (n ++ r₀) ∧ Insertion scope m₀ r₀ r := by
  obtain ⟨c, n, rfl⟩ := List.exists_cons_of_ne_nil hne
  obtain ⟨hspace, hinert⟩ := hhead c rfl
  generalize ht : a ++ (c :: n ++ r) = t at h
  induction h generalizing a with
  | nil => simp at ht
  | keep m d h ih =>
    cases a with
    | nil =>
      have hkeep := Insertion.keep m d h
      rw [← ht, List.nil_append] at hkeep
      obtain ⟨r₀, hr₀, hr⟩ := of_append hs hpoint hkeep
      exact ⟨[], r₀, _, hr₀, hr⟩
    | cons e a =>
      rw [List.cons_append, List.cons.injEq] at ht
      obtain ⟨a₀, r₀, m₀, rfl, hr⟩ := ih ht.2
      exact ⟨d :: a₀, r₀, m₀, rfl, hr⟩
  | @put d s t _ _ ih =>
    -- The class and the space are passed by, since the first character is not among them.
    have hout : c ∉ scope ++ [' '] := by
      rw [List.mem_append, not_or]
      exact ⟨fun hm => hinert (hs.inert c hm), by simpa using hspace⟩
    rw [List.append_cons] at ht
    rcases List.append_eq_append_iff.mp ht with ⟨x, hx, hr⟩ | ⟨x, -, hr⟩
    · cases x with
      | nil => exact ih (a := []) (by rw [List.nil_append, hr, List.nil_append])
      | cons e x =>
        rw [List.cons_append, List.cons_append, List.cons.injEq] at hr
        exact absurd (by simp [hx, hr.1]) hout
    · exact ih hr.symm

/-- Such a text occurs in the result only if it occurs in the original. -/
theorem infix_inv {c : Char} {r : Text} (hs : ScopeClass scope) (hpoint : '.' ∉ c :: r)
    (hspace : c ≠ ' ') (hinert : ¬ Inert c) (h : Insertion scope m s t) (hi : c :: r <:+: t) :
    c :: r <:+: s := by
  obtain ⟨a, b, rfl⟩ := hi
  rw [List.append_assoc] at h
  have hhead : ∀ d ∈ (c :: r).head?, d ≠ ' ' ∧ ¬ Inert d := by
    rintro d ⟨⟩
    exact ⟨hspace, hinert⟩
  obtain ⟨a₀, b₀, -, rfl, -⟩ := of_infix hs (List.cons_ne_nil c r) hpoint hhead h
  exact ⟨a₀, b₀, List.append_assoc _ _ _⟩

end Insertion

end StyleSnippet.Css
