import Mathlib.Data.List.Induction
import Mathlib.Data.List.TakeWhile
import StyleSnippet.Proofs.Outline.Moves

/-!
# Chunks as cuts of the list

A chunk is told in the program by two positions, which are found by searches for headings. It is
told here by the settings in it: a list of settings is cut in three, in front of the chunk, the
chunk, and behind it. At every position of the list there is such a cut, and the searches find the
positions where it cuts.
-/

set_option autoImplicit false

namespace StyleSnippet

/-! ## Positions in a list that is cut -/

section Cut

variable {α : Type}

/-- The span of the middle one of three lists cuts out that list. -/
theorem Span.slice_append (a l b : List α) :
    Span.slice ⟨a.length, a.length + l.length⟩ (a ++ l ++ b) = l := by
  rw [slice, List.append_assoc, List.drop_left, Nat.add_sub_cancel_left, List.take_left]

/-- The span of the middle one of three lists leaves the other two. -/
theorem Span.outside_append (a l b : List α) :
    Span.outside ⟨a.length, a.length + l.length⟩ (a ++ l ++ b) = a ++ b := by
  rw [outside, ← List.length_append, List.drop_left, List.append_assoc, List.take_left]

/-- Exchanging the two runs in the middle of a list that is cut in four. -/
theorem Outline.exchange_append (a l r b : List α) :
    exchange a.length (a.length + l.length) (a.length + l.length + r.length) (a ++ l ++ r ++ b) =
      a ++ r ++ l ++ b := by
  have hleft : Span.slice ⟨a.length, a.length + l.length⟩ (a ++ l ++ r ++ b) = l := by
    rw [List.append_assoc (a ++ l)]
    exact Span.slice_append a l (r ++ b)
  have hright : Span.slice ⟨a.length + l.length, a.length + l.length + r.length⟩
      (a ++ l ++ r ++ b) = r := by
    rw [← List.length_append]
    exact Span.slice_append (a ++ l) r b
  have hfront : (a ++ l ++ r ++ b).take a.length = a := by
    simp only [List.append_assoc, List.take_left]
  have hbehind : (a ++ l ++ r ++ b).drop (a.length + l.length + r.length) = b := by
    rw [← List.length_append, ← List.length_append, List.drop_left]
  rw [exchange, hleft, hright, hfront, hbehind]

end Cut

namespace Outline

variable {settings before chunk after kids lead rest : List Setting} {h s : Setting} {i : Nat}

/-! ## Groups -/

/-- Settings none of which is a heading. -/
def Headless (l : List Setting) : Prop := ∀ s ∈ l, s.isHeading = false

/-- A list that is at its end or goes on with a heading. -/
def AtHeading (rest : List Setting) : Prop := ∀ s ∈ rest.head?, s.isHeading = true

/-- Whether a list has no heading is decided by a look at its settings. -/
instance (l : List Setting) : Decidable (Headless l) :=
  inferInstanceAs (Decidable (∀ s ∈ l, s.isHeading = false))

/-- Whether a list starts at a heading is decided by a look at its first setting. -/
instance (rest : List Setting) : Decidable (AtHeading rest) :=
  inferInstanceAs (Decidable (∀ s ∈ rest.head?, s.isHeading = true))

/-- A heading and its children. -/
inductive IsGroup : List Setting → Prop
  | mk {h : Setting} {kids : List Setting} : h.isHeading = true → Headless kids →
    IsGroup (h :: kids)

/-- A chunk, in front of the given settings: one setting that is no heading, or a heading and the
settings up to the next heading or the end. -/
inductive IsChunk : (chunk rest : List Setting) → Prop
  | item {s : Setting} {rest : List Setting} : s.isHeading = false → IsChunk [s] rest
  | group {chunk rest : List Setting} : IsGroup chunk → AtHeading rest → IsChunk chunk rest

/-- The end of a list is as good as a heading. -/
theorem atHeading_nil : AtHeading [] := by
  simp [AtHeading]

/-- A list does not start at a heading if its first setting is none. -/
theorem not_atHeading_cons (hs : s.isHeading = false) (rest : List Setting) :
    ¬ AtHeading (s :: rest) := by
  intro hat
  have hheading : s.isHeading = true := hat s rfl
  rw [hs] at hheading
  cases hheading

/-- What starts with a group starts at a heading. -/
theorem IsGroup.atHeading {l : List Setting} (hl : IsGroup l) (rest : List Setting) :
    AtHeading (l ++ rest) := by
  cases hl with
  | mk hh _ =>
    intro s hs
    obtain rfl := Option.some.inj hs
    exact hh

/-- A group holds its heading. -/
theorem IsGroup.ne_nil {l : List Setting} (hl : IsGroup l) : l ≠ [] := by
  cases hl
  exact List.cons_ne_nil _ _

/-- A chunk holds the setting that it is the chunk of. -/
theorem IsChunk.ne_nil (hchunk : IsChunk chunk rest) : chunk ≠ [] := by
  cases hchunk with
  | item _ => exact List.cons_ne_nil _ _
  | group hgroup _ => exact hgroup.ne_nil

/-- A setting that is no heading makes no group. -/
theorem not_isGroup_singleton (hs : s.isHeading = false) : ¬ IsGroup [s] := by
  rintro ⟨hh, -⟩
  rw [hs] at hh
  cases hh

/-- Settings up to the first heading, and what follows them. -/
theorem exists_headless (l : List Setting) :
    ∃ kids rest, l = kids ++ rest ∧ Headless kids ∧ AtHeading rest := by
  refine ⟨l.takeWhile (!·.isHeading), l.dropWhile (!·.isHeading),
    List.takeWhile_append_dropWhile.symm, ?_, ?_⟩
  · intro s hs
    simpa using List.mem_takeWhile_imp hs
  · intro s hs
    have := List.head?_dropWhile_not (fun s : Setting => !s.isHeading) l
    rw [hs] at this
    simpa using this

/-- Settings of which none is a heading, or which end in a group. -/
theorem exists_last_group (l : List Setting) :
    Headless l ∨ ∃ front group, l = front ++ group ∧ IsGroup group := by
  -- From the last setting on: a heading is a group alone, any other setting joins the group in
  -- front of it.
  induction l using List.reverseRecOn with
  | nil =>
    left
    intro s hs
    simp at hs
  | append_singleton l s ih =>
    cases hs : s.isHeading with
    | true => exact Or.inr ⟨l, [s], rfl, .mk hs fun t ht => by simp at ht⟩
    | false =>
      rcases ih with hl | ⟨front, group, rfl, hgroup⟩
      · left
        intro t ht
        rcases List.mem_append.mp ht with ht | ht
        · exact hl t ht
        · rw [List.mem_singleton.mp ht, hs]
      · right
        cases hgroup with
        | @mk h kids hh hkids =>
          refine ⟨front, h :: (kids ++ [s]), by simp, .mk hh fun t ht => ?_⟩
          rcases List.mem_append.mp ht with ht | ht
          · exact hkids t ht
          · rw [List.mem_singleton.mp ht, hs]

/-! ## Searches for headings -/

/-- From where settings without a heading start, the next heading is where they end. -/
theorem nextHeading_append (before : List Setting) (hkids : Headless kids)
    (hrest : AtHeading rest) :
    nextHeading (before ++ kids ++ rest) before.length = before.length + kids.length := by
  have hrun : (kids ++ rest).takeWhile (!·.isHeading) = kids := by
    have hall : ∀ s ∈ kids, (!s.isHeading) = true := fun s hs => by simp [hkids s hs]
    rw [List.takeWhile_append_of_pos hall]
    cases rest with
    | nil => simp
    | cons s rest => simp [hrest s rfl]
  rw [nextHeading, List.append_assoc, List.drop_left, hrun]

/-- A group starts at the heading, or at the start of the list, behind which none follows up to the
position. -/
theorem groupStart_add (settings : List Setting) (j n : Nat)
    (hstart : j = 0 ∨ settings[j]?.any Setting.isHeading = true)
    (hnone : ∀ k, j < k → k ≤ j + n → settings[k]?.any Setting.isHeading = false) :
    groupStart settings (j + n) = j := by
  induction n with
  | zero =>
    cases j with
    | zero => rfl
    | succ j =>
      rcases hstart with hstart | hstart
      · cases hstart
      · exact if_pos hstart
  | succ n ih =>
    have hlast := hnone (j + (n + 1)) (by omega) (Nat.le_refl _)
    rw [← Nat.add_assoc] at hlast ⊢
    rw [groupStart, hlast, if_neg Bool.false_ne_true]
    exact ih fun k hk hle => hnone k hk (by omega)

/-- No position among settings without a heading is that of a heading. -/
theorem any_getElem?_of_headless (hkids : Headless kids) (before rest : List Setting) {k : Nat}
    (hlow : before.length ≤ k) (hhigh : k < before.length + kids.length) :
    (before ++ kids ++ rest)[k]?.any Setting.isHeading = false := by
  have hk : k - before.length < kids.length := by omega
  rw [List.append_assoc, List.getElem?_append_right hlow, List.getElem?_append_left hk,
    List.getElem?_eq_getElem hk]
  exact hkids _ (List.getElem_mem hk)

/-- The group in front of a position starts where its heading is. -/
theorem groupStart_group (before : List Setting) {group : List Setting} (hgroup : IsGroup group)
    (rest : List Setting) :
    groupStart (before ++ group ++ rest) (before.length + group.length - 1) = before.length := by
  cases hgroup with
  | @mk h kids hh hkids =>
    -- The search goes back over the children, from the last one to the heading.
    have hlist : before ++ h :: kids ++ rest = before ++ [h] ++ kids ++ rest := by simp
    have hpos : before.length + (h :: kids).length - 1 = before.length + kids.length := by
      rw [List.length_cons]
      omega
    rw [hlist, hpos]
    apply groupStart_add
    · right
      simp [hh]
    · intro k hlow hhigh
      apply any_getElem?_of_headless hkids (before ++ [h])
      · simp only [List.length_append, List.length_singleton]
        omega
      · simp only [List.length_append, List.length_singleton]
        omega

/-- The settings in front of all headings start where the list does. -/
theorem groupStart_headless (hlead : Headless lead) (rest : List Setting) :
    groupStart (lead ++ rest) (lead.length - 1) = 0 := by
  have hadd := groupStart_add (lead ++ rest) 0 (lead.length - 1) (Or.inl rfl) ?_
  · rwa [Nat.zero_add] at hadd
  · intro k hlow hhigh
    exact any_getElem?_of_headless hlead [] rest (Nat.zero_le k) (by rw [List.length_nil]; omega)

/-! ## The chunk at a position -/

/-- A list of settings, cut at the chunk of the setting at a position. -/
structure CutAt (settings : List Setting) (i : Nat) (before chunk after : List Setting) : Prop where
  join : before ++ chunk ++ after = settings
  length_before : before.length = i
  isChunk : IsChunk chunk after

/-- A list is cut at the position of one of its settings. -/
theorem eq_of_getElem?_eq_some (hi : settings[i]? = some s) :
    (settings.take i).length = i ∧ settings.take i ++ s :: settings.drop (i + 1) = settings := by
  obtain ⟨hlt, rfl⟩ := List.getElem?_eq_some_iff.mp hi
  refine ⟨List.length_take_of_le (Nat.le_of_lt hlt), ?_⟩
  rw [List.getElem_cons_drop, List.take_append_drop]

/-- A setting that is no heading is a chunk of its own. -/
theorem cutAt_item (hi : settings[i]? = some s) (hs : s.isHeading = false) :
    CutAt settings i (settings.take i) [s] (settings.drop (i + 1)) := by
  obtain ⟨hlength, hjoin⟩ := eq_of_getElem?_eq_some hi
  exact ⟨by rwa [List.append_assoc], hlength, .item hs⟩

/-- A heading is cut out with the settings up to the next one. -/
theorem exists_cutAt_heading (hi : settings[i]? = some h) (hh : h.isHeading = true) :
    ∃ kids after, CutAt settings i (settings.take i) (h :: kids) after ∧ Headless kids ∧
      AtHeading after := by
  obtain ⟨hlength, hjoin⟩ := eq_of_getElem?_eq_some hi
  obtain ⟨kids, after, hbehind, hkids, hat⟩ := exists_headless (settings.drop (i + 1))
  rw [hbehind] at hjoin
  exact ⟨kids, after, ⟨by simpa using hjoin, hlength, .group (.mk hh hkids) hat⟩, hkids, hat⟩

/-- There is a chunk at every position of the list. -/
theorem exists_cutAt_or_length_le (settings : List Setting) (i : Nat) :
    (∃ before chunk after, CutAt settings i before chunk after) ∨ settings.length ≤ i := by
  cases hi : settings[i]? with
  | none => exact Or.inr (List.getElem?_eq_none_iff.mp hi)
  | some s =>
    left
    cases hs : s.isHeading with
    | false => exact ⟨_, _, _, cutAt_item hi hs⟩
    | true =>
      obtain ⟨kids, after, hcut, -, -⟩ := exists_cutAt_heading hi hs
      exact ⟨_, _, _, hcut⟩

namespace CutAt

variable (hcut : CutAt settings i before chunk after)

include hcut

/-- The chunk that is found at a cut is the one that is cut out. -/
theorem chunk?_eq : chunk? settings i = some ⟨i, i + chunk.length⟩ := by
  obtain ⟨rfl, rfl, hchunk⟩ := hcut
  cases hchunk with
  | item hs => simp [chunk?, hs]
  | group hgroup hat =>
    cases hgroup with
    | @mk h kids hh hkids =>
      have hnext := nextHeading_append (before ++ [h]) hkids hat
      simp only [List.length_append, List.length_singleton] at hnext
      have hlist : before ++ h :: kids ++ after = before ++ [h] ++ kids ++ after := by simp
      have hstop : before.length + (h :: kids).length = before.length + 1 + kids.length := by
        rw [List.length_cons]
        omega
      rw [chunk?, hlist, hnext, hstop]
      simp [hh]

/-- A deletion takes out the chunk of the cut and puts its two sides together. -/
theorem delete_eq : delete i settings = (before ++ after, chunk) := by
  rw [delete, hcut.chunk?_eq]
  obtain ⟨rfl, rfl, -⟩ := hcut
  simp only [Span.slice_append, Span.outside_append]

/-- The setting at a cut is the first one of the chunk. -/
theorem getElem?_eq : settings[i]? = chunk.head? := by
  obtain ⟨rfl, rfl, hchunk⟩ := hcut
  rw [List.append_assoc, List.getElem?_append_right (Nat.le_refl _), Nat.sub_self,
    ← List.head?_eq_getElem?, List.head?_append_of_ne_nil _ hchunk.ne_nil]

/-- Whether the chunk is that of a heading is told by the setting at its position. -/
theorem any_isHeading_iff : settings[i]?.any Setting.isHeading = true ↔ IsGroup chunk := by
  rw [hcut.getElem?_eq]
  obtain ⟨-, -, hchunk⟩ := hcut
  cases hchunk with
  | item hs => simp [hs, not_isGroup_singleton hs]
  | group hgroup _ =>
    refine ⟨fun _ => hgroup, fun _ => ?_⟩
    cases hgroup with
    | mk hh _ => simp [hh]

end CutAt

/-- A heading with two children. -/
def sampleGroup : List Setting :=
  [.new .heading "H1", .new .classToggle "b", .new .classToggle "c"]

/-- A heading with one child. -/
def otherGroup : List Setting := [.new .heading "H2", .new .classToggle "d"]

/-- The group of the sample is a group. -/
theorem isGroup_sampleGroup : IsGroup sampleGroup := .mk (by decide) (by decide)

/-- The other group of the sample is a group, too. -/
theorem isGroup_otherGroup : IsGroup otherGroup := .mk (by decide) (by decide)

/-- Two groups, and a setting in front of them. -/
def sampleOutline : List Setting := [.new .classToggle "a"] ++ sampleGroup ++ otherGroup

end Outline

end StyleSnippet
