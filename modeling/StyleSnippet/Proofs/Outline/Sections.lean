import StyleSnippet.Outline.Section
import StyleSnippet.Proofs.Outline.Groups

/-!
# Sections, chunks and deletions agree

The sections of a list are made by going from heading to heading. They are told here once more by
putting the settings of the list in front, one by one, from the last to the first: then a list that
is cut in front of a heading has the sections of its two parts, and what holds of sections is kept
by one setting more. So a heading and what its chunk holds besides are one section, and chunks,
children and deletions, which look for headings in the list, agree with the sections.
-/

set_option autoImplicit false

namespace StyleSnippet

open Outline

namespace Section

variable {l before rest kids : List Setting} {sections : List Section} {h s : Setting}

/-! ## Sections, setting by setting -/

/-- The sections that are left when a setting is put in front. A heading takes the children of a
first section without a heading; any other setting joins them. -/
def putFront (s : Setting) : List Section → List Section
  | ⟨none, children⟩ :: rest =>
    if s.isHeading then ⟨some s, children⟩ :: rest else ⟨none, s :: children⟩ :: rest
  | sections => if s.isHeading then ⟨some s, []⟩ :: sections else ⟨none, [s]⟩ :: sections

/-- The sections of a list of settings, setting by setting. -/
def grouping (settings : List Setting) : List Section := settings.foldr putFront []

/-- The sections with a setting in front hold it in front of all others. -/
theorem settings_putFront (s : Setting) (sections : List Section) :
    (putFront s sections).flatMap settings = s :: sections.flatMap settings := by
  unfold putFront
  split <;> split <;> simp [settings]

/-- Grouping settings loses nothing. -/
theorem settings_grouping (l : List Setting) : (grouping l).flatMap settings = l := by
  induction l with
  | nil => rfl
  | cons s rest ih =>
    simp only [grouping, List.foldr_cons, settings_putFront] at ih ⊢
    rw [ih]

/-- A setting in front of a list is put in front of its sections. -/
theorem grouping_cons (s : Setting) (l : List Setting) :
    grouping (s :: l) = putFront s (grouping l) := rfl

/-- A setting in front of settings of which the first one is a heading, or of none. -/
theorem putFront_grouping (hrest : AtHeading rest) (s : Setting) :
    putFront s (grouping rest) = putFront s [] ++ grouping rest := by
  cases rest with
  | nil => rw [grouping, List.foldr_nil, List.append_nil]
  | cons h rest =>
    have hh : h.isHeading = true := hrest h rfl
    obtain ⟨kids, tail, hfirst⟩ : ∃ kids tail, grouping (h :: rest) = ⟨some h, kids⟩ :: tail := by
      rw [grouping_cons]
      unfold putFront
      split
      · exact ⟨_, _, if_pos hh⟩
      · exact ⟨_, _, if_pos hh⟩
    rw [hfirst]
    simp only [putFront]
    split <;> rfl

/-- A list that is cut in front of a heading has the sections of its two parts. -/
theorem grouping_append (l : List Setting) (hrest : AtHeading rest) :
    grouping (l ++ rest) = grouping l ++ grouping rest := by
  -- A setting in front changes the first section only, which is one of `l` unless `l` is empty.
  induction l with
  | nil => rfl
  | cons s l ih =>
    rw [List.cons_append, grouping_cons, grouping_cons, ih]
    cases hl : grouping l with
    | nil => exact putFront_grouping hrest s
    | cons first sections =>
      obtain ⟨heading, kids⟩ := first
      cases heading <;> simp only [putFront, List.cons_append] <;> split <;> rfl

/-- Settings in front of all headings are one section. -/
theorem grouping_headless (hl : Headless l) (hne : l ≠ []) : grouping l = [⟨none, l⟩] := by
  induction l with
  | nil => exact absurd rfl hne
  | cons s l ih =>
    obtain ⟨hs, hl⟩ := List.forall_mem_cons.mp hl
    have hs : ¬ s.isHeading = true := by simp [hs]
    rw [grouping_cons]
    cases l with
    | nil => exact if_neg hs
    | cons t l =>
      rw [ih hl (List.cons_ne_nil t l)]
      exact if_neg hs

/-- A heading and its children are one section. -/
theorem grouping_group (hh : h.isHeading = true) (hkids : Headless kids) :
    grouping (h :: kids) = [⟨some h, kids⟩] := by
  rw [grouping_cons]
  cases kids with
  | nil => exact if_pos hh
  | cons s kids =>
    rw [grouping_headless hkids (List.cons_ne_nil s kids)]
    exact if_pos hh

/-! ## Sections, heading by heading -/

/-- At the end of the list there are no more sections. -/
theorem fromHeading_length (l : List Setting) : fromHeading l l.length = [] := by
  rw [fromHeading, dif_neg (Nat.lt_irrefl _)]

/-- One step from a heading leads behind its children, which are a section with it. -/
theorem fromHeading_step (before : List Setting) (h : Setting) (hkids : Headless kids)
    (hrest : AtHeading rest) :
    fromHeading (before ++ h :: kids ++ rest) before.length =
      ⟨some h, kids⟩ :: fromHeading (before ++ h :: kids ++ rest) (before ++ h :: kids).length := by
  have hlist : before ++ h :: kids ++ rest = before ++ [h] ++ kids ++ rest := by simp
  have hin : before.length < (before ++ h :: kids ++ rest).length := by simp
  have hheading : (before ++ h :: kids ++ rest)[before.length] = h := by simp
  have hstart : before.length + 1 = (before ++ [h]).length := by simp
  have hstop : (before ++ [h]).length + kids.length = (before ++ h :: kids).length := by
    simp only [List.length_append, List.length_cons, List.length_nil]
    omega
  have hnext := nextHeading_append (before ++ [h]) hkids hrest
  have hslice := Span.slice_append (before ++ [h]) kids rest
  rw [← hlist, hstop] at hnext hslice
  rw [fromHeading, dif_pos hin, hheading, hstart, hnext]
  simp only [hslice]

/-- Going from heading to heading gives the sections of what is left of the list. -/
theorem fromHeading_eq (before : List Setting) (hrest : AtHeading rest) :
    fromHeading (before ++ rest) before.length = grouping rest := by
  -- The induction is on what is left, which is shorter behind each heading and its children.
  induction hn : rest.length using Nat.strong_induction_on generalizing before rest with
  | _ n ih =>
    cases rest with
    | nil =>
      rw [List.append_nil, fromHeading_length]
      rfl
    | cons h tail =>
      obtain ⟨kids, behind, rfl, hkids, hbehind⟩ := exists_headless tail
      have hh : h.isHeading = true := hrest h rfl
      have hshorter : behind.length < n := by
        rw [← hn, List.length_cons, List.length_append]
        omega
      have hlist : before ++ h :: (kids ++ behind) = before ++ h :: kids ++ behind := by simp
      rw [hlist, fromHeading_step before h hkids hbehind,
        ih _ hshorter (before ++ h :: kids) hbehind rfl, ← List.cons_append,
        grouping_append _ hbehind, grouping_group hh hkids, List.singleton_append]

/-- Heading by heading and setting by setting, the sections of a list are the same. -/
theorem ofSettings_eq (l : List Setting) : ofSettings l = grouping l := by
  obtain ⟨lead, rest, rfl, hlead, hrest⟩ := exists_headless l
  have hfirst : nextHeading (lead ++ rest) 0 = lead.length := by
    simpa using nextHeading_append [] hlead hrest
  rw [ofSettings, hfirst, fromHeading_eq lead hrest, grouping_append lead hrest, List.take_left]
  cases lead with
  | nil => rfl
  | cons s lead =>
    rw [grouping_headless hlead (List.cons_ne_nil s lead)]
    rfl

/-- The sections of a list of settings make up the list. -/
theorem settings_ofSettings (l : List Setting) : (ofSettings l).flatMap settings = l := by
  rw [ofSettings_eq, settings_grouping]

/-! ## What sections look like -/

/-- A section on its own. -/
structure WellFormed (s : Section) : Prop where
  isHeading : ∀ h ∈ s.heading, h.isHeading = true
  headless : Headless s.children
  /-- A section is not empty. -/
  ne_nil : s.heading = none → s.children ≠ []

/-- The sections of a list of settings. Only the first one can be without a heading. -/
structure Grouped (sections : List Section) : Prop where
  wellFormed : ∀ s ∈ sections, s.WellFormed
  headed : ∀ s ∈ sections.tail, s.heading ≠ none

/-- Sections with one more in front. -/
theorem grouped_cons {first : Section} : Grouped (first :: sections) ↔
    first.WellFormed ∧ (∀ s ∈ sections, s.WellFormed) ∧ ∀ s ∈ sections, s.heading ≠ none := by
  constructor
  · rintro ⟨hwell, hheaded⟩
    exact ⟨hwell _ (by simp), fun s hs => hwell s (by simp [hs]), hheaded⟩
  · rintro ⟨hfirst, hwell, hheaded⟩
    exact ⟨List.forall_mem_cons.mpr ⟨hfirst, hwell⟩, hheaded⟩

/-- A heading and settings none of which is a heading. -/
theorem wellFormed_heading (hs : s.isHeading = true) (hkids : Headless kids) :
    WellFormed ⟨some s, kids⟩ where
  isHeading := by
    rintro h ⟨⟩
    exact hs
  headless := hkids
  ne_nil := nofun

/-- Settings none of which is a heading. -/
theorem wellFormed_lead (hs : s.isHeading = false) (hkids : Headless kids) :
    WellFormed ⟨none, s :: kids⟩ where
  isHeading := nofun
  headless := List.forall_mem_cons.mpr ⟨hs, hkids⟩
  ne_nil _ := List.cons_ne_nil _ _

/-- Sections with a setting in front are sections of a list. -/
theorem Grouped.putFront (hg : Grouped sections) (s : Setting) :
    Grouped (putFront s sections) := by
  have hnil : Headless [] := fun s hs => by simp at hs
  unfold Section.putFront
  split
  · next kids rest =>
    obtain ⟨hfirst, hwell, hheaded⟩ := grouped_cons.mp hg
    split
    · next hs => exact grouped_cons.mpr ⟨wellFormed_heading hs hfirst.headless, hwell, hheaded⟩
    · next hs =>
      have hlead := wellFormed_lead (by simpa using hs) hfirst.headless
      exact grouped_cons.mpr ⟨hlead, hwell, hheaded⟩
  · next hfirst =>
    -- The first section, if there is one, has a heading, and the new one is put in front of it.
    have hall : ∀ t ∈ sections, t.heading ≠ none := by
      intro t ht hnone
      cases sections with
      | nil => simp at ht
      | cons first rest =>
        rcases List.mem_cons.mp ht with rfl | ht
        · obtain ⟨heading, kids⟩ := t
          cases hnone
          exact hfirst kids rest rfl
        · exact hg.headed t ht hnone
    split
    · next hs => exact grouped_cons.mpr ⟨wellFormed_heading hs hnil, hg.wellFormed, hall⟩
    · next hs =>
      have hlead := wellFormed_lead (by simpa using hs) hnil
      exact grouped_cons.mpr ⟨hlead, hg.wellFormed, hall⟩

/-- Every section of a list has a heading, except for a first one in front of all headings. -/
theorem grouped_ofSettings (l : List Setting) : Grouped (ofSettings l) := by
  rw [ofSettings_eq]
  induction l with
  | nil => exact ⟨fun s hs => by simp [grouping] at hs, fun s hs => by simp [grouping] at hs⟩
  | cons s l ih => exact ih.putFront s

/-! ## The sections around a group -/

/-- A group is one section between those of the lists in front of it and behind it. -/
theorem ofSettings_around (before : List Setting) (hh : h.isHeading = true)
    (hkids : Headless kids) (hrest : AtHeading rest) :
    ofSettings (before ++ h :: kids ++ rest) =
      ofSettings before ++ ⟨some h, kids⟩ :: ofSettings rest := by
  have hgroup := IsGroup.mk hh hkids
  rw [ofSettings_eq, ofSettings_eq, ofSettings_eq, List.append_assoc,
    grouping_append before (hgroup.atHeading rest), grouping_append _ hrest,
    grouping_group hh hkids, List.singleton_append]

/-- A group is one section of every list that it is in. -/
theorem exists_section_of_isGroup (hl : IsGroup l) : ∃ section_, ∀ before rest, AtHeading rest →
    ofSettings (before ++ l ++ rest) = ofSettings before ++ section_ :: ofSettings rest := by
  cases hl with
  | @mk h kids hh hkids =>
    exact ⟨⟨some h, kids⟩, fun before _ hrest => ofSettings_around before hh hkids hrest⟩

end Section

namespace Outline

/-- The sections of a list of settings make up the list, and are grouped by its headings. At every
heading stands a section, whose settings are the chunk and whose children are the children there,
and deleting the heading takes that section out. Deleting any other setting takes out that setting,
and deleting behind the end nothing. -/
theorem sections_chunks_agree (settings : List Setting) :
    ((Section.ofSettings settings).flatMap Section.settings = settings ∧
      Section.Grouped (Section.ofSettings settings)) ∧
    (∀ i h, settings[i]? = some h → h.isHeading = true → ∃ front kids behind,
      Section.ofSettings settings = front ++ ⟨some h, kids⟩ :: behind ∧
        (front.flatMap Section.settings).length = i ∧
        chunk? settings i = some ⟨i, i + (h :: kids).length⟩ ∧
        children settings i = ⟨i + 1, i + 1 + kids.length⟩ ∧
        delete i settings = ((front ++ behind).flatMap Section.settings, h :: kids)) ∧
    (∀ i s, settings[i]? = some s → s.isHeading = false →
      delete i settings = (settings.take i ++ settings.drop (i + 1), [s])) ∧
    ∀ i, settings.length ≤ i → delete i settings = (settings, []) := by
  refine ⟨⟨Section.settings_ofSettings settings, Section.grouped_ofSettings settings⟩, ?_,
    fun i s hi hs => (cutAt_item hi hs).delete_eq, fun i hi => ?_⟩
  · intro i h hi hh
    obtain ⟨kids, after, hcut, hkids, hat⟩ := exists_cutAt_heading hi hh
    have hstop : i + (h :: kids).length = i + 1 + kids.length := by
      rw [List.length_cons]
      omega
    refine ⟨Section.ofSettings (settings.take i), kids, Section.ofSettings after, ?_, ?_,
      hcut.chunk?_eq, ?_, ?_⟩
    · conv_lhs => rw [← hcut.join]
      exact Section.ofSettings_around (settings.take i) hh hkids hat
    · rw [Section.settings_ofSettings, hcut.length_before]
    · simp only [children, hcut.chunk?_eq, hstop]
    · rw [hcut.delete_eq, List.flatMap_append, Section.settings_ofSettings,
        Section.settings_ofSettings]
  · rw [delete, chunk?_eq_none_iff.mpr hi]

/-- The section of the first heading of the sample is its chunk, and its deletion leaves the other
sections. -/
theorem sections_chunks_agree_sample : ∃ h, sampleOutline[1]? = some h ∧ h.isHeading = true ∧
    ∃ front kids behind, Section.ofSettings sampleOutline = front ++ ⟨some h, kids⟩ :: behind ∧
      (front.flatMap Section.settings).length = 1 ∧
      chunk? sampleOutline 1 = some ⟨1, 1 + (h :: kids).length⟩ ∧
      children sampleOutline 1 = ⟨2, 2 + kids.length⟩ ∧
      delete 1 sampleOutline = ((front ++ behind).flatMap Section.settings, h :: kids) ∧
      delete 3 sampleOutline =
        ([.new .classToggle "a", h, .new .classToggle "b"] ++ otherGroup,
          [.new .classToggle "c"]) ∧
      delete 6 sampleOutline = (sampleOutline, []) := by
  have hheading : (Setting.new .heading "H1").isHeading = true := by decide
  obtain ⟨-, hgroup, hitem, hend⟩ := sections_chunks_agree sampleOutline
  obtain ⟨front, kids, behind, hsections, hplace, hchunk, hchildren, hdelete⟩ :=
    hgroup 1 _ rfl hheading
  exact ⟨_, rfl, hheading, front, kids, behind, hsections, hplace, hchunk, hchildren, hdelete,
    hitem 3 _ rfl (by decide), hend 6 (by decide)⟩

end Outline

end StyleSnippet
