import Mathlib.Data.List.DropRight
import StyleSnippet.Text.Basic

/-!
# White space around a text

Trimming takes off the white space at the two ends of a text and nothing else. A text is
`Trimmed` if neither end is white space, and those are the texts that trimming leaves alone.
-/

set_option autoImplicit false

namespace StyleSnippet.Text

/-- A text that holds nothing but white space. -/
def Blank (t : Text) : Prop := ∀ c ∈ t, isBlank c = true

/-- A text with no white space at its two ends. -/
structure Trimmed (t : Text) : Prop where
  head : ∀ c ∈ t.head?, isBlank c = false
  last : ∀ c ∈ t.getLast?, isBlank c = false

/-- What is said of the characters of a text is decided by going through the text, not through all
characters that there are. -/
instance (p : Char → Prop) [DecidablePred p] (t : Text) : Decidable (∀ c ∈ t, p c) :=
  List.decidableBAll p t

/-! ## Blank characters -/

/-- The code points of the blank characters. -/
def blankCodes : List Nat := blankRanges.flatMap fun r => List.range' r.1 (r.2 + 1 - r.1)

/-- What can be checked of each code point holds of every blank character. -/
theorem forall_blank {p : Char → Bool} (h : ∀ n ∈ blankCodes, p (Char.ofNat n) = true) {c : Char}
    (hc : isBlank c = true) : p c = true := by
  have hmem : c.toNat ∈ blankCodes := by
    rw [isBlank, List.any_eq_true] at hc
    obtain ⟨r, hr, hrange⟩ := hc
    simp only [Bool.and_eq_true, decide_eq_true_eq] at hrange
    refine List.mem_flatMap.mpr ⟨r, hr, ?_⟩
    rw [List.mem_range'_1]
    omega
  have hcode := h _ hmem
  rwa [Char.ofNat_toNat] at hcode

/-! ## Blank texts -/

/-- The empty text is white space. -/
@[simp] theorem blank_nil : Blank [] := by simp [Blank]

/-- A text is white space just if its first character is and the rest is. -/
@[simp] theorem blank_cons {c : Char} {t : Text} :
    Blank (c :: t) ↔ isBlank c = true ∧ Blank t := by simp [Blank]

/-- A line feed is white space. -/
theorem blank_feed : Blank ['\n'] := blank_cons.mpr ⟨by decide, blank_nil⟩

/-- White space, if there is any, starts with a character of it. -/
theorem Blank.exists_cons {t : Text} (h : Blank t) (hne : t ≠ []) :
    ∃ c r, t = c :: r ∧ isBlank c = true ∧ Blank r := by
  obtain ⟨c, r, rfl⟩ := List.exists_cons_of_ne_nil hne
  exact ⟨c, r, rfl, blank_cons.mp h⟩

/-- Two texts are white space just if both are. -/
@[simp] theorem blank_append {s t : Text} : Blank (s ++ t) ↔ Blank s ∧ Blank t := by
  simp only [Blank, List.mem_append]
  constructor
  · intro h
    exact ⟨fun c hc => h c (Or.inl hc), fun c hc => h c (Or.inr hc)⟩
  · rintro ⟨hs, ht⟩ c (hc | hc)
    · exact hs c hc
    · exact ht c hc

/-- White space is so from its end, too. -/
@[simp] theorem blank_reverse {t : Text} : Blank t.reverse ↔ Blank t := by simp [Blank]

/-- A text without white space. -/
def Solid (t : Text) : Prop := ∀ c ∈ t, isBlank c = false

/-- Whether a text is without white space is decided character by character. -/
instance (t : Text) : Decidable (Solid t) :=
  inferInstanceAs (Decidable (∀ c ∈ t, isBlank c = false))

/-- The empty text is without white space. -/
@[simp] theorem solid_nil : Solid [] := by simp [Solid]

/-- A text is without white space just if its first character is none and the rest is without. -/
@[simp] theorem solid_cons {c : Char} {t : Text} :
    Solid (c :: t) ↔ isBlank c = false ∧ Solid t := by simp [Solid]

/-- Two texts are without white space just if both are. -/
@[simp] theorem solid_append {s t : Text} : Solid (s ++ t) ↔ Solid s ∧ Solid t :=
  List.forall_mem_append

/-- A text without white space holds no tab. -/
theorem Solid.tab_not_mem {t : Text} (h : Solid t) : '\t' ∉ t := by
  intro ht
  exact absurd (h _ ht) (by decide)

/-- Dropping leading white space passes over a blank text. -/
theorem dropWhile_blank_append {u : Text} (hu : Blank u) (t : Text) :
    (u ++ t).dropWhile isBlank = t.dropWhile isBlank := by
  induction u with
  | nil => rfl
  | cons c r ih =>
    rw [blank_cons] at hu
    rw [List.cons_append, List.dropWhile_cons_of_pos hu.1, ih hu.2]

/-- Dropping leading white space leaves a text alone that starts with none. -/
theorem dropWhile_eq_self {t : Text} (h : ∀ c ∈ t.head?, isBlank c = false) :
    t.dropWhile isBlank = t := by
  cases t with
  | nil => rfl
  | cons c r => rw [List.dropWhile_cons_of_neg (by simp [h c (by simp)])]

/-- What is left after the leading white space does not start with white space. -/
theorem head_dropWhile (t : Text) : ∀ c ∈ (t.dropWhile isBlank).head?, isBlank c = false := by
  intro c hc
  have h := List.head?_dropWhile_not isBlank t
  rw [Option.mem_def.mp hc] at h
  simpa using h

/-- What is skipped at the start of a text is white space. -/
theorem blank_takeWhile (t : Text) : Blank (t.takeWhile isBlank) := fun _ => List.mem_takeWhile_imp

/-- A text is white space and what stands behind it. -/
theorem exists_eq_append_dropWhile (t : Text) : ∃ u, Blank u ∧ t = u ++ t.dropWhile isBlank :=
  ⟨t.takeWhile isBlank, blank_takeWhile t, List.takeWhile_append_dropWhile.symm⟩

/-! ## Trimming -/

/-- There is nothing to trim at the end of the empty text. -/
@[simp] theorem trimEnd_nil : trimEnd [] = [] := rfl

/-- White space that is put at the end of a text is trimmed off. -/
theorem trimEnd_append_blank {v : Text} (hv : Blank v) (t : Text) :
    trimEnd (t ++ v) = trimEnd t := by
  rw [trimEnd, List.reverse_append, dropWhile_blank_append (blank_reverse.mpr hv), trimEnd]

/-- A text that does not end in white space stays as it is when its end is trimmed. -/
theorem trimEnd_eq_self {t : Text} (h : ∀ c ∈ t.getLast?, isBlank c = false) :
    trimEnd t = t := by
  rw [trimEnd, dropWhile_eq_self (by simpa using h), List.reverse_reverse]

/-- A text is its trimmed form and white space behind it. -/
theorem exists_eq_trimEnd_append (t : Text) : ∃ v, Blank v ∧ t = trimEnd t ++ v := by
  obtain ⟨u, hu, ht⟩ := exists_eq_append_dropWhile t.reverse
  refine ⟨u.reverse, blank_reverse.mpr hu, ?_⟩
  have := congrArg List.reverse ht
  simpa [trimEnd] using this

/-- A text whose end is trimmed does not end in white space. -/
theorem last_trimEnd (t : Text) : ∀ c ∈ (trimEnd t).getLast?, isBlank c = false := by
  rw [trimEnd, List.getLast?_reverse]
  exact head_dropWhile t.reverse

/-- Trimming the end goes through to what follows, if that is not blank. -/
theorem trimEnd_append {s t : Text} (h : ¬ Blank t) : trimEnd (s ++ t) = s ++ trimEnd t := by
  obtain ⟨v, hv, ht⟩ := exists_eq_trimEnd_append t
  have hne : trimEnd t ≠ [] := by
    intro h0
    rw [h0] at ht
    exact h (ht ▸ hv)
  conv_lhs => rw [ht, ← List.append_assoc, trimEnd_append_blank hv]
  apply trimEnd_eq_self
  rw [List.getLast?_append_of_ne_nil _ hne]
  exact last_trimEnd t

/-- Trimming drops blank text at both ends. -/
theorem trim_pad {u v : Text} (hu : Blank u) (hv : Blank v) (t : Text) :
    trim (u ++ t ++ v) = trim t := by
  obtain ⟨w, hw, ht⟩ := exists_eq_append_dropWhile t
  rw [trim, trimStart, List.append_assoc, dropWhile_blank_append hu]
  by_cases hb : Blank t
  · have h1 : (t ++ v).dropWhile isBlank = [] := by
      simpa using dropWhile_blank_append (u := t ++ v) (by simp [hb, hv]) []
    have h2 : t.dropWhile isBlank = [] := by simpa using dropWhile_blank_append hb []
    rw [h1, trim, trimStart, h2]
  · have hne : t.dropWhile isBlank ≠ [] := by
      intro h0
      rw [h0, List.append_nil] at ht
      exact hb (ht ▸ hw)
    have h1 : (t ++ v).dropWhile isBlank = t.dropWhile isBlank ++ v := by
      conv_lhs => rw [ht, List.append_assoc, dropWhile_blank_append hw]
      apply dropWhile_eq_self
      rw [List.head?_append_of_ne_nil _ hne]
      exact head_dropWhile t
    rw [h1, trimEnd_append_blank hv, trim, trimStart]

/-- White space that is put in front of a text is trimmed off. -/
theorem trim_blank_append {u : Text} (hu : Blank u) (t : Text) : trim (u ++ t) = trim t := by
  simpa using trim_pad hu blank_nil t

/-- White space that is put behind a text is trimmed off. -/
theorem trim_append_blank {v : Text} (hv : Blank v) (t : Text) : trim (t ++ v) = trim t := by
  simpa using trim_pad blank_nil hv t

/-- A text with no white space at its ends stays as it is when trimmed. -/
theorem Trimmed.trim_eq {t : Text} (h : Trimmed t) : trim t = t := by
  rw [trim, trimStart, dropWhile_eq_self h.head, trimEnd_eq_self h.last]

/-- A text is the white space at its start, its trimmed form and other white space. -/
theorem exists_eq_takeWhile_append_trim (t : Text) :
    ∃ v, Blank v ∧ t = t.takeWhile isBlank ++ trim t ++ v := by
  obtain ⟨v, hv, hs⟩ := exists_eq_trimEnd_append (trimStart t)
  refine ⟨v, hv, ?_⟩
  rw [List.append_assoc, trim, ← hs, trimStart, List.takeWhile_append_dropWhile]

/-- A text is its trimmed form between two blank texts. -/
theorem exists_eq_append_trim (t : Text) :
    ∃ u v, Blank u ∧ Blank v ∧ t = u ++ trim t ++ v := by
  obtain ⟨v, hv, ht⟩ := exists_eq_takeWhile_append_trim t
  exact ⟨t.takeWhile isBlank, v, blank_takeWhile t, hv, ht⟩

/-- What is left of a trimmed text stands in it. -/
theorem isInfix_trim (t : Text) : trim t <:+: t := by
  obtain ⟨u, v, -, -, ht⟩ := exists_eq_append_trim t
  exact ⟨u, v, ht.symm⟩

/-- Trimming makes a text trimmed. -/
theorem trimmed_trim (t : Text) : Trimmed (trim t) := by
  refine ⟨?_, last_trimEnd _⟩
  intro c hc
  obtain ⟨v, hv, hs⟩ := exists_eq_trimEnd_append (trimStart t)
  have hmem : c ∈ (trimStart t).head? := by
    rw [hs]
    exact List.mem_head?_append_of_mem_head? hc
  exact head_dropWhile t c hmem

/-- Trimming twice is trimming once. -/
@[simp] theorem trim_trim (t : Text) : trim (trim t) = trim t := (trimmed_trim t).trim_eq

/-- There is nothing to trim of the empty text. -/
@[simp] theorem trim_nil : trim [] = [] := rfl

/-- Nothing is left of a text by trimming just if the text is blank. -/
theorem trim_eq_nil_iff {t : Text} : trim t = [] ↔ Blank t := by
  constructor
  · intro h
    obtain ⟨u, v, hu, hv, ht⟩ := exists_eq_append_trim t
    rw [h] at ht
    rw [ht]
    simp [hu, hv]
  · intro h
    simpa using trim_append_blank h []

/-- A text is trimmed if its first and its last character are no white space. -/
theorem Trimmed.of_ends {t : Text} {c d : Char} (hhead : t.head? = some c)
    (hlast : t.getLast? = some d) (hc : isBlank c = false) (hd : isBlank d = false) :
    Trimmed t := by
  refine ⟨?_, ?_⟩
  · intro e he
    rwa [← Option.some.inj (hhead.symm.trans he)]
  · intro e he
    rwa [← Option.some.inj (hlast.symm.trans he)]

/-- A text between two others that are trimmed and not empty. -/
theorem Trimmed.append {s t : Text} (hs : Trimmed s) (ht : Trimmed t) (hs' : s ≠ [])
    (ht' : t ≠ []) (m : Text) : Trimmed (s ++ m ++ t) := by
  refine ⟨?_, ?_⟩
  · rw [List.append_assoc, List.head?_append_of_ne_nil _ hs']
    exact hs.head
  · rw [List.getLast?_append_of_ne_nil _ ht']
    exact ht.last

/-- A text without white space is trimmed. -/
theorem Solid.trimmed {t : Text} (h : Solid t) : Trimmed t :=
  ⟨fun c hc => h c (List.mem_of_mem_head? hc), fun c hc => h c (List.mem_of_mem_getLast? hc)⟩

/-- Behind a trimmed text that is not empty, only the end of what follows is trimmed. -/
theorem Trimmed.trim_append {s : Text} (h : Trimmed s) (hne : s ≠ []) (t : Text) :
    trim (s ++ t) = s ++ trimEnd t := by
  have hhead : ∀ c ∈ (s ++ t).head?, isBlank c = false := by
    rw [List.head?_append_of_ne_nil _ hne]
    exact h.head
  rw [trim, trimStart, dropWhile_eq_self hhead]
  by_cases hb : Blank t
  · have hnil : trimEnd t = [] := by
      simpa using trimEnd_append_blank hb []
    rw [trimEnd_append_blank hb, hnil, List.append_nil]
    exact trimEnd_eq_self h.last
  · exact trimEnd_append hb

/-- A trimmed text is not white space unless it is empty. -/
theorem Trimmed.not_blank {t : Text} (h : Trimmed t) (hne : t ≠ []) : ¬ Blank t := by
  intro hb
  exact hne (h.trim_eq ▸ trim_eq_nil_iff.mpr hb)

/-- What starts with ink is not lost when leading white space is dropped. -/
theorem infix_trimStart {n t : Text} (hne : n ≠ []) (hn : ∀ c ∈ n.head?, isBlank c = false)
    (h : n <:+: t) : n <:+: trimStart t := by
  induction t with
  | nil => exact h
  | cons c r ih =>
    by_cases hc : isBlank c = true
    · rw [trimStart, List.dropWhile_cons_of_pos hc]
      apply ih
      rcases List.infix_cons_iff.mp h with hp | hi
      · -- the text would start with white space
        obtain ⟨d, n, rfl⟩ := List.exists_cons_of_ne_nil hne
        rw [List.cons_prefix_cons] at hp
        rw [← hp.1, hn d (by simp)] at hc
        simp at hc
      · exact hi
    · rw [trimStart, List.dropWhile_cons_of_neg hc]
      exact h

/-- A trimmed text is not lost when the text around it is trimmed. -/
theorem Trimmed.infix_trim {n t : Text} (hn : Trimmed n) (hne : n ≠ []) (h : n <:+: t) :
    n <:+: trim t := by
  have hstart := infix_trimStart hne hn.head h
  have hend : n.reverse <:+: trimStart (trimStart t).reverse := by
    apply infix_trimStart (by simpa using hne)
    · simpa using hn.last
    · exact List.reverse_infix.mpr hstart
  simpa [trim, trimEnd, trimStart] using List.reverse_infix.mpr hend

end StyleSnippet.Text
