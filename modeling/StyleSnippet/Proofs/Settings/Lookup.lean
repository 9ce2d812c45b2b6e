import StyleSnippet.Document.Body
import StyleSnippet.Proofs.Document.Rendered
import StyleSnippet.Proofs.Settings.Places

/-!
# Looking up a setting

Settings are looked up to be read and to be changed. Either way it is the one at the first place, in
the order of places, that a test accepts: that one is found, and changing it leaves the settings at
all other places as they were. So where settings share an id, all of the library means the same one.
-/

set_option autoImplicit false

namespace StyleSnippet

namespace Setting

variable {test : Setting → Bool} {change : Setting → Setting}
  {settings rest old new : List Setting} {s t : Setting} {p q : List Nat} {i : Nat}

/-! ## The first setting that a test accepts -/

/-- Whether a setting is the first one that a test accepts, and where it stands. -/
structure FirstAt (test : Setting → Bool) (settings : List Setting) (p : List Nat)
    (s : Setting) : Prop where
  here : at? settings p = some s
  accepted : test s = true
  first : ∀ q t, at? settings q = some t → Before q p → test t = false

/-- Either a test accepts no setting, or the first one that it accepts is found depth first. -/
theorem exists_firstAt (test : Setting → Bool) (settings : List Setting) :
    ((depthFirstAll settings).find? test = none ∧
      ∀ p s, at? settings p = some s → test s = false) ∨
    ∃ p s, FirstAt test settings p s ∧ (depthFirstAll settings).find? test = some s := by
  obtain ⟨l, hl, heq⟩ := exists_listing settings
  rw [← heq, List.find?_map]
  cases hfind : l.find? (test ∘ (·.2)) with
  | none =>
    refine Or.inl ⟨rfl, ?_⟩
    intro p s hs
    simpa using List.find?_eq_none.mp hfind _ ((hl.mem_iff p s).mpr hs)
  | some e =>
    obtain ⟨p, s⟩ := e
    obtain ⟨haccepted, l₁, l₂, hsplit, hrefused⟩ := List.find?_eq_some_iff_append.mp hfind
    refine Or.inr ⟨p, s, ⟨(hl.mem_iff p s).mp (by simp [hsplit]), haccepted, ?_⟩, rfl⟩
    intro q t ht hbefore
    have hmem := (hl.mem_iff q t).mpr ht
    have horder := hl.order
    rw [hsplit, List.pairwise_append, List.pairwise_cons] at horder
    rw [hsplit, List.mem_append, List.mem_cons] at hmem
    rcases hmem with hmem | heq | hmem
    · simpa using hrefused _ hmem
    · cases heq
      exact absurd hbefore hbefore.asymm
    · exact absurd hbefore (horder.2.1.1 _ hmem).asymm

/-! ## Changing one setting -/

/-- Whether a forest is another one with the setting at one place changed: that setting and what is
nested in it are as the change makes them, the settings around it differ in what is nested in them,
and the others stay. -/
structure ChangedAt (change : Setting → Setting) (p : List Nat) (old new : List Setting) :
    Prop where
  inside : ∀ q, at? new (p ++ q) = (at? old p).bind fun s => (change s).below? q
  around : ∀ q, q <+: p → q ≠ p →
    ∃ nested, at? new q = (at? old q).map fun s => { s with nested := nested }
  aside : ∀ q, ¬ q <+: p → ¬ p <+: q → at? new q = at? old q

/-- A change of the first setting is one at its place. -/
theorem changedAt_first (change : Setting → Setting) (s : Setting) (rest : List Setting) :
    ChangedAt change [0] (s :: rest) (change s :: rest) := by
  refine ⟨fun q => rfl, ?_, ?_⟩
  · intro q hq hne
    obtain rfl : q = [] := by
      simpa [hne] using List.prefix_cons_iff.mp hq
    exact ⟨s.nested, rfl⟩
  · intro q hq hp
    rcases q with _ | ⟨_ | i, q⟩
    · exact absurd List.nil_prefix hq
    · simp at hp
    · rfl

/-- A change among what is nested in the first setting is one of the forest. -/
theorem ChangedAt.nested {nested : List Setting} (h : ChangedAt change (i :: p) s.nested nested)
    (rest : List Setting) :
    ChangedAt change (0 :: i :: p) (s :: rest) ({ s with nested := nested } :: rest) := by
  refine ⟨fun q => h.inside q, ?_, ?_⟩
  · intro q hq hne
    rcases q with _ | ⟨_ | j, _ | ⟨k, q⟩⟩
    · exact ⟨[], rfl⟩
    · exact ⟨nested, rfl⟩
    · exact h.around (k :: q) (by simpa using hq) (by simpa using hne)
    · simp at hq
    · simp at hq
  · intro q hq hp
    rcases q with _ | ⟨_ | j, _ | ⟨k, q⟩⟩
    · exact absurd List.nil_prefix hq
    · simp at hq
    · exact h.aside (k :: q) (by simpa using hq) (by simpa using hp)
    · rfl
    · rfl

/-- A change stays one when a setting is put in front. -/
theorem ChangedAt.behind (h : ChangedAt change (i :: p) old new) (s : Setting) :
    ChangedAt change ((i + 1) :: p) (s :: old) (s :: new) := by
  refine ⟨fun q => h.inside q, ?_, ?_⟩
  · intro q hq hne
    rcases q with _ | ⟨_ | j, q⟩
    · exact ⟨[], rfl⟩
    · simp at hq
    · exact h.around (j :: q) (by simpa using hq) (by simpa using hne)
  · intro q hq hp
    rcases q with _ | ⟨_ | j, q⟩
    · exact absurd List.nil_prefix hq
    · rfl
    · exact h.aside (j :: q) (by simpa using hq) (by simpa using hp)

/-- What is first in a forest and nested in its first setting is first there. -/
theorem FirstAt.of_nested (h : FirstAt test (t :: rest) (0 :: i :: p) s) :
    FirstAt test t.nested (i :: p) s := by
  refine ⟨h.here, h.accepted, ?_⟩
  intro q u hu hbefore
  cases q with
  | nil => simp at hu
  | cons j q => exact h.first (0 :: j :: q) u hu (before_cons_iff.mpr hbefore)

/-- What is first in a forest and not in its first setting is first among the rest. -/
theorem FirstAt.of_rest (h : FirstAt test (t :: rest) ((i + 1) :: p) s) :
    FirstAt test rest (i :: p) s := by
  refine ⟨h.here, h.accepted, ?_⟩
  intro q u hu hbefore
  cases q with
  | nil => simp at hu
  | cons j q => exact h.first ((j + 1) :: q) u hu (before_succ_iff.mpr hbefore)

/-- The first setting that a test accepts is the one that is changed. -/
theorem FirstAt.exists_changed (h : FirstAt test settings p s) (change : Setting → Setting) :
    ∃ new, updateFirstOf? test change settings = some new ∧ ChangedAt change p settings new := by
  -- the place tells whether the setting is the first of the list, nested in it or behind it
  induction settings using forest_induction generalizing p with
  | nil => simpa using h.here
  | cons t rest ihn ihr =>
    rw [updateFirstOf?_cons]
    rcases p with _ | ⟨_ | i, p⟩
    · simpa using h.here
    · cases p with
      | nil =>
        obtain rfl : t = s := Option.some.inj h.here
        rw [if_pos h.accepted]
        exact ⟨_, rfl, changedAt_first change t rest⟩
      | cons i p =>
        have ht : test t = false :=
          h.first [0] t rfl (before_cons_iff.mpr (before_nil_iff.mpr (by simp)))
        obtain ⟨new, hnew, hchanged⟩ := ihn h.of_nested
        rw [if_neg (by simp [ht]), hnew]
        exact ⟨_, rfl, hchanged.nested rest⟩
    · have ht : test t = false := h.first [0] t rfl (before_of_lt (by omega))
      have hnone : updateFirstOf? test change t.nested = none := by
        rw [updateFirstOf?_eq_none]
        intro u hu
        obtain ⟨q, hq⟩ := mem_depthFirstAll_iff.mp hu
        cases q with
        | nil => simp at hq
        | cons j q => exact h.first (0 :: j :: q) u hq (before_of_lt (by omega))
      obtain ⟨new, hnew, hchanged⟩ := ihr h.of_rest
      rw [if_neg (by simp [ht]), hnone, hnew]
      exact ⟨_, rfl, hchanged.behind t⟩

/-- Either a test accepts no setting, and none is changed, or the first one that it accepts is the
one that is found and the one that is changed. -/
theorem exists_addressed (test : Setting → Bool) (settings : List Setting) :
    (∃ p s, FirstAt test settings p s ∧ (depthFirstAll settings).find? test = some s ∧
      ∀ change, ∃ new, updateFirstOf? test change settings = some new ∧
        ChangedAt change p settings new) ∨
    ((∀ p s, at? settings p = some s → test s = false) ∧
      (depthFirstAll settings).find? test = none ∧
        ∀ change, updateFirstOf? test change settings = none) := by
  obtain ⟨hnone, hrefused⟩ | ⟨p, s, hfirst, hsome⟩ := exists_firstAt test settings
  · refine Or.inr ⟨hrefused, hnone, fun change => ?_⟩
    rw [updateFirstOf?_eq_none]
    intro s hs
    obtain ⟨p, hp⟩ := mem_depthFirstAll_iff.mp hs
    exact hrefused p s hp
  · exact Or.inl ⟨p, s, hfirst, hsome, hfirst.exists_changed⟩

end Setting

/-! ## The settings of a config -/

namespace Config

open Setting

/-- Whether a config means the setting at a place by an id: it is the first one with that id, it is
the one that is found, changed and given the CSS of a cell. -/
structure Means (c : Config) (id : Text) (p : List Nat) (s : Setting) : Prop where
  first : FirstAt (fun s => s.id = id) c.settings p s
  found : c.find? id = some s
  changed : ∀ change, ∃ settings, c.update? id change = some { c with settings := settings } ∧
    ChangedAt change p c.settings settings
  cell : ∀ (o : Occurrence Cell) (rest : Text), o.value.id = id →
    ChangedAt (appendCss (Text.trim o.value.content)) p c.settings
      (Body.handOutCells c.settings ([o], rest)).settings

/-- A visit comes by every setting once, in the order of places, which is that of the recursion,
and fragments are written in that order. By an id that some setting has, the first of them is
meant, whether it is to be read, changed or given CSS; no other id finds or changes anything. A
passage goes by that order too, to the first setting that owns it. -/
theorem lookups_agree (c : Config) :
    (∃ l, Listing c.settings l ∧ c.allSettings = l.map (·.2) ∧ ∀ o, c.bodyParts o =
      c.globalPart ++ l.filterMap fun e => e.2.fragment?.map (c.fragment o e.2)) ∧
    c.allSettings = depthFirstAll c.settings ∧
    (∀ id, (∃ p s, c.Means id p s) ∨
      ((∀ p s, at? c.settings p = some s → s.id ≠ id) ∧ c.find? id = none ∧
        ∀ change, c.update? id change = none)) ∧
    ∀ css, css ≠ [] → (∃ p s settings, FirstAt (Body.owns css) c.settings p s ∧
        Body.handOut? css c.settings = some settings ∧
          ChangedAt (appendCss css) p c.settings settings) ∨
      ((∀ p s, at? c.settings p = some s → Body.owns css s = false) ∧
        Body.handOut? css c.settings = none) := by
  refine ⟨?_, allSettings_eq c, ?_, ?_⟩
  · obtain ⟨l, hl, heq⟩ := exists_listing c.settings
    rw [← allSettings_eq] at heq
    refine ⟨l, hl, heq.symm, fun o => ?_⟩
    rw [bodyParts, ← heq, List.filterMap_map]
    rfl
  · intro id
    have hfind : c.find? id = (depthFirstAll c.settings).find? fun s => s.id = id := by
      rw [find?, allSettings_eq]
    obtain ⟨p, s, hfirst, hsome, hchanges⟩ | ⟨hrefused, hnone, hstays⟩ :=
      exists_addressed (fun s => s.id = id) c.settings
    · left
      refine ⟨p, s, hfirst, by rw [hfind, hsome], ?_, ?_⟩
      · intro change
        obtain ⟨settings, hnew, hchanged⟩ := hchanges change
        exact ⟨settings, by rw [update?, hnew]; rfl, hchanged⟩
      · rintro o rest rfl
        obtain ⟨settings, hnew, hchanged⟩ := hchanges (appendCss (Text.trim o.value.content))
        simpa [Body.handOutCells, hnew] using hchanged
    · right
      refine ⟨fun p s hs => by simpa using hrefused p s hs, by rw [hfind, hnone], fun change => ?_⟩
      rw [update?, hstays change]
      rfl
  · intro css hcss
    have hout : Body.handOut? css c.settings =
        updateFirstOf? (Body.owns css) (appendCss css) c.settings := by
      rw [Body.handOut?, if_neg (by simpa using hcss)]
    rw [hout]
    obtain ⟨p, s, hfirst, -, hchanges⟩ | ⟨hrefused, -, hstays⟩ :=
      exists_addressed (Body.owns css) c.settings
    · obtain ⟨settings, hnew, hchanged⟩ := hchanges (appendCss css)
      exact Or.inl ⟨p, s, settings, hfirst, hnew, hchanged⟩
    · exact Or.inr ⟨hrefused, hstays _⟩

end Config

end StyleSnippet
