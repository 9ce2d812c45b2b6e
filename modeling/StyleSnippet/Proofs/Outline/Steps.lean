import StyleSnippet.Proofs.Outline.Ids
import StyleSnippet.Proofs.Outline.Sections

/-!
# Moving by one step

A chunk that is moved by one step changes places with what stands next to it: a setting with the
setting there, and a heading with its children with the group there. A step the other way takes it
back, unless it was a group that was moved in front of the settings that have no heading: those then
count as its children.
-/

set_option autoImplicit false

namespace StyleSnippet

open Outline

/-! ## Directions -/

namespace Direction

/-- The other direction. -/
def opposite : Direction → Direction
  | up => down
  | down => up

/-- What is left on the side that a chunk is moved to. -/
def ahead {α : Type} : Direction → (before after : List α) → List α
  | up, before, _ => before
  | down, _, after => after

/-- Two runs next to each other, one of which is about to be moved past the other. -/
def order {α : Type} : Direction → (moved other : List α) → List α
  | up, moved, other => other ++ moved
  | down, moved, other => moved ++ other

/-- How far from the start of both runs the one stands that is about to be moved. -/
def offset {α : Type} : Direction → (other : List α) → Nat
  | up, other => other.length
  | down, _ => 0

/-- The other direction of the other one is the direction itself. -/
@[simp] theorem opposite_opposite (d : Direction) : d.opposite.opposite = d := by
  cases d <;> rfl

end Direction

namespace Outline

variable {settings settings' before moved other behind chunk after : List Setting} {i j : Nat}
  {direction : Direction}

/-! ## Steps -/

/-- What a chunk is moved past. -/
inductive Passed
  /-- One setting. -/
  | setting
  /-- A heading and its children. -/
  | group
  /-- The settings in front of all headings. -/
  | lead
  deriving DecidableEq, Repr

/-- What can change places with what: a setting that is no heading with any setting, a group with a
group, and a group on its way up with all settings in front of it, if none of them is a heading. -/
inductive Passes : Direction → Passed → (before moved other behind : List Setting) → Prop
  | setting {direction : Direction} {before behind : List Setting} {s t : Setting} :
    s.isHeading = false → Passes direction .setting before [s] [t] behind
  | group {direction : Direction} {before moved other behind : List Setting} : IsGroup moved →
    IsGroup other → AtHeading behind → Passes direction .group before moved other behind
  | lead {moved other behind : List Setting} : IsGroup moved → Headless other → other ≠ [] →
    AtHeading behind → Passes .up .lead [] moved other behind

/-- A step in a direction: what is moved stands at `i` before and at `j` behind it, it changes
places with what it passes, and all else stays where it is. -/
inductive Step (direction : Direction) (passed : Passed) (settings : List Setting) (i : Nat)
    (settings' : List Setting) (j : Nat) : Prop
  | mk {before moved other behind : List Setting}
    (passes : Passes direction passed before moved other behind)
    (old : settings = before ++ direction.order moved other ++ behind)
    (old_place : i = before.length + direction.offset other)
    (new : settings' = before ++ direction.opposite.order moved other ++ behind)
    (new_place : j = before.length + direction.opposite.offset other) :
    Step direction passed settings i settings' j

/-- What passes something one way passes it back the other way, the settings in front of all
headings aside. -/
theorem Passes.opposite {passed : Passed} (h : Passes direction passed before moved other behind)
    (hlead : passed ≠ .lead) : Passes direction.opposite passed before moved other behind := by
  cases h with
  | setting hs => exact .setting hs
  | group hmoved hother hat => exact .group hmoved hother hat
  | lead => exact absurd rfl hlead

/-- A step is taken back by one the other way. -/
theorem Step.opposite {passed : Passed} (h : Step direction passed settings i settings' j)
    (hlead : passed ≠ .lead) : Step direction.opposite passed settings' j settings i := by
  obtain ⟨hpasses, hold, hi, hnew, hj⟩ := h
  exact .mk (hpasses.opposite hlead) hnew hj (by rwa [Direction.opposite_opposite])
    (by rwa [Direction.opposite_opposite])

/-- What is passed holds a setting. -/
theorem Passes.other_ne_nil {passed : Passed}
    (h : Passes direction passed before moved other behind) : other ≠ [] := by
  cases h with
  | setting _ => exact List.cons_ne_nil _ _
  | group _ hother _ => exact hother.ne_nil
  | lead _ _ hne _ => exact hne

/-- What is moved down is the chunk at its position. -/
theorem Passes.cutAt_down {passed : Passed} (h : Passes .down passed before moved other behind) :
    CutAt (before ++ moved ++ other ++ behind) before.length before moved (other ++ behind) := by
  refine ⟨(List.append_assoc _ _ _).symm, rfl, ?_⟩
  cases h with
  | setting hs => exact .item hs
  | group hmoved hother _ => exact .group hmoved (hother.atHeading behind)

/-- What is moved up is the chunk at its position. -/
theorem Passes.cutAt_up {passed : Passed} (h : Passes .up passed before moved other behind) :
    CutAt (before ++ other ++ moved ++ behind) (before.length + other.length) (before ++ other)
      moved behind := by
  refine ⟨rfl, List.length_append, ?_⟩
  cases h with
  | setting hs => exact .item hs
  | group hmoved _ hat => exact .group hmoved hat
  | lead hmoved _ _ hat => exact .group hmoved hat

/-! ## The neighbours are found -/

/-- The neighbour below ends where what is passed ends. -/
theorem Passes.neighbourStop_eq {passed : Passed}
    (h : Passes .down passed before moved other behind) :
    neighbourStop (before ++ moved ++ other ++ behind)
        ⟨before.length, before.length + moved.length⟩ =
      before.length + moved.length + other.length := by
  have hheading := h.cutAt_down.any_isHeading_iff
  rw [neighbourStop]
  cases h with
  | setting hs => exact if_neg (hheading.not.mpr (not_isGroup_singleton hs))
  | group hmoved hother hat =>
    rw [if_pos (hheading.mpr hmoved)]
    cases hother with
    | @mk h kids _ hkids =>
      have hnext := nextHeading_append (before ++ moved ++ [h]) hkids hat
      have hlist : before ++ moved ++ h :: kids ++ behind =
          before ++ moved ++ [h] ++ kids ++ behind := by simp
      simp only [List.length_append, List.length_singleton] at hnext
      rw [hlist, hnext, List.length_cons]
      omega

/-- The neighbour above starts where what is passed starts. -/
theorem Passes.neighbourStart_eq {passed : Passed}
    (h : Passes .up passed before moved other behind) (stop : Nat) :
    neighbourStart (before ++ other ++ moved ++ behind)
        ⟨before.length + other.length, stop⟩ = before.length := by
  have hheading := h.cutAt_up.any_isHeading_iff
  rw [neighbourStart]
  cases h with
  | setting hs => exact if_neg (hheading.not.mpr (not_isGroup_singleton hs))
  | group hmoved hother _ =>
    rw [if_pos (hheading.mpr hmoved), List.append_assoc (before ++ other)]
    exact groupStart_group before hother (moved ++ behind)
  | lead hmoved hother _ _ =>
    rw [if_pos (hheading.mpr hmoved), List.append_assoc (([] : List Setting) ++ other),
      List.nil_append, List.length_nil, Nat.zero_add]
    exact groupStart_headless hother (moved ++ behind)

/-! ## Moves are steps -/

/-- A chunk moves down by an exchange with its neighbour below, if there is one. -/
theorem CutAt.moveBy_down (hcut : CutAt settings i before chunk after) :
    moveBy i .down settings =
      if i + chunk.length = settings.length then none
      else some (exchange i (i + chunk.length)
        (neighbourStop settings ⟨i, i + chunk.length⟩) settings) := by
  rw [moveBy, hcut.chunk?_eq]
  rfl

/-- A chunk moves up by an exchange with its neighbour above, if there is one. -/
theorem CutAt.moveBy_up (hcut : CutAt settings i before chunk after) :
    moveBy i .up settings =
      if i = 0 then none
      else some (exchange (neighbourStart settings ⟨i, i + chunk.length⟩) i
        (i + chunk.length) settings) := by
  rw [moveBy, hcut.chunk?_eq]
  rfl

/-- A step is what a move makes. -/
theorem Step.moveBy_eq {passed : Passed} (h : Step direction passed settings i settings' j) :
    moveBy i direction settings = some settings' := by
  obtain @⟨before, moved, other, behind, hpasses, rfl, rfl, rfl, -⟩ := h
  have hother := List.length_pos_iff.mpr hpasses.other_ne_nil
  cases direction with
  | down =>
    have hmove := hpasses.cutAt_down.moveBy_down
    rw [if_neg (by simp only [List.length_append]; omega), hpasses.neighbourStop_eq,
      exchange_append] at hmove
    simpa [Direction.order, Direction.offset, Direction.opposite] using hmove
  | up =>
    have hmove := hpasses.cutAt_up.moveBy_up
    rw [if_neg (by omega), hpasses.neighbourStart_eq, exchange_append] at hmove
    simpa [Direction.order, Direction.offset, Direction.opposite] using hmove

/-- A chunk with something on the side that it is moved to makes a step. -/
theorem CutAt.exists_step (hcut : CutAt settings i before chunk after)
    (hahead : direction.ahead before after ≠ []) :
    ∃ passed settings' j, Step direction passed settings i settings' j := by
  obtain ⟨rfl, rfl, hchunk⟩ := hcut
  cases direction with
  | down =>
    obtain ⟨t, rest, rfl⟩ := List.exists_cons_of_ne_nil hahead
    cases hchunk with
    | @item s _ hs =>
      have hpasses : Passes .down .setting before [s] [t] rest := .setting hs
      exact ⟨.setting, _, _, .mk hpasses (by simp [Direction.order]) rfl rfl rfl⟩
    | group hgroup hat =>
      obtain ⟨kids, behind, rfl, hkids, hbehind⟩ := exists_headless rest
      have hother : IsGroup (t :: kids) := .mk (hat t rfl) hkids
      have hpasses : Passes .down .group before chunk (t :: kids) behind :=
        .group hgroup hother hbehind
      exact ⟨.group, _, _, .mk hpasses (by simp [Direction.order]) rfl rfl rfl⟩
  | up =>
    -- A group goes past the group in front of it, and where there is none, past all in front.
    cases hchunk with
    | @item s _ hs =>
      obtain ⟨front, t, rfl⟩ := (List.eq_nil_or_concat before).resolve_left hahead
      have hpasses : Passes .up .setting front [s] [t] after := .setting hs
      exact ⟨.setting, _, _, .mk hpasses (by simp [Direction.order])
        (by simp [Direction.offset]) rfl rfl⟩
    | group hgroup hat =>
      rcases exists_last_group before with hlead | ⟨front, other, rfl, hother⟩
      · have hpasses : Passes .up .lead [] chunk before after := .lead hgroup hlead hahead hat
        exact ⟨.lead, _, _, .mk hpasses (by simp [Direction.order])
          (by simp [Direction.offset]) rfl rfl⟩
      · have hpasses : Passes .up .group front chunk other after := .group hgroup hother hat
        exact ⟨.group, _, _, .mk hpasses (by simp [Direction.order])
          (by simp [Direction.offset]) rfl rfl⟩

/-- A chunk with nothing on the side that it is moved to stays. -/
theorem CutAt.moveBy_eq_none (hcut : CutAt settings i before chunk after)
    (hahead : direction.ahead before after = []) : moveBy i direction settings = none := by
  cases direction with
  | down =>
    rw [hcut.moveBy_down, if_pos]
    rw [← hcut.join, ← hcut.length_before, List.length_append, List.length_append,
      show after = [] from hahead]
    rfl
  | up =>
    rw [hcut.moveBy_up, if_pos]
    rw [← hcut.length_before, show before = [] from hahead]
    rfl

/-- Where no setting stands, nothing moves. -/
theorem moveBy_of_length_le (hi : settings.length ≤ i) : moveBy i direction settings = none := by
  rw [moveBy, chunk?_eq_none_iff.mpr hi]
  rfl

/-- Every move is a step. -/
theorem exists_step_of_moveBy (hmove : moveBy i direction settings = some settings') :
    ∃ passed j, Step direction passed settings i settings' j := by
  rcases exists_cutAt_or_length_le settings i with ⟨before, chunk, after, hcut⟩ | hi
  · have hahead : direction.ahead before after ≠ [] := by
      intro hnil
      rw [hcut.moveBy_eq_none hnil] at hmove
      cases hmove
    obtain ⟨passed, moved, j, hstep⟩ := hcut.exists_step hahead
    have hmoved := hstep.moveBy_eq
    rw [hmove] at hmoved
    obtain rfl := Option.some.inj hmoved
    exact ⟨passed, j, hstep⟩
  · rw [moveBy_of_length_le hi] at hmove
    cases hmove

/-! ## Steps back -/

/-- A group that is moved past the settings in front of all headings takes their place at the start
of the list. -/
theorem Step.of_lead (h : Step direction .lead settings i settings' j) :
    direction = .up ∧ j = 0 ∧ ¬ AtHeading settings ∧ AtHeading settings' := by
  obtain @⟨before, moved, other, behind, hpasses, rfl, -, rfl, rfl⟩ := h
  cases hpasses with
  | lead hmoved hother hne _ =>
    refine ⟨rfl, rfl, ?_, ?_⟩
    · obtain ⟨s, rest, rfl⟩ := List.exists_cons_of_ne_nil hne
      exact not_atHeading_cons (hother s List.mem_cons_self) _
    · rw [List.nil_append]
      show AtHeading (moved ++ other ++ behind)
      rw [List.append_assoc]
      exact hmoved.atHeading _

/-- A step down from the start of a list that starts with a heading leads to one that does. -/
theorem Step.atHeading_of_down {passed : Passed} (h : Step .down passed settings 0 settings' j)
    (hat : AtHeading settings) : AtHeading settings' := by
  obtain @⟨before, moved, other, behind, hpasses, rfl, hplace, rfl, -⟩ := h
  have hbefore : before = [] := List.eq_nil_of_length_eq_zero hplace.symm
  subst hbefore
  cases hpasses with
  | setting hs => exact absurd hat (not_atHeading_cons hs _)
  | group _ hother _ =>
    rw [List.nil_append]
    show AtHeading (other ++ moved ++ behind)
    rw [List.append_assoc]
    exact hother.atHeading _

/-- So it does not come back by a step down: the settings that it was moved past are its children
now, and go with it. -/
theorem Step.moveBy_ne (h : Step direction .lead settings i settings' j) :
    moveBy j direction.opposite settings' ≠ some settings := by
  obtain ⟨rfl, rfl, hnot, hat⟩ := h.of_lead
  intro hmove
  obtain ⟨passed, k, hback⟩ := exists_step_of_moveBy hmove
  exact hnot (hback.atHeading_of_down hat)

/-! ## Sections -/

/-- Two groups that stand side by side are two sections, in whichever order they stand. -/
theorem exists_sections {l r : List Setting} (hl : IsGroup l) (hr : IsGroup r) :
    ∃ a b, ∀ before rest, AtHeading rest →
      Section.ofSettings (before ++ l ++ r ++ rest) =
          Section.ofSettings before ++ [a, b] ++ Section.ofSettings rest ∧
        Section.ofSettings (before ++ r ++ l ++ rest) =
          Section.ofSettings before ++ [b, a] ++ Section.ofSettings rest := by
  obtain ⟨a, ha⟩ := Section.exists_section_of_isGroup hl
  obtain ⟨b, hb⟩ := Section.exists_section_of_isGroup hr
  have hnil : Section.ofSettings [] = [] := Section.ofSettings_eq []
  refine ⟨a, b, fun before rest hrest => ⟨?_, ?_⟩⟩
  · rw [hb (before ++ l) rest hrest, ← List.append_nil (before ++ l), ha before [] atHeading_nil]
    simp [hnil]
  · rw [ha (before ++ r) rest hrest, ← List.append_nil (before ++ r), hb before [] atHeading_nil]
    simp [hnil]

/-- Where a group passes another one, the two sections change places. -/
theorem Step.sections_eq (h : Step direction .group settings i settings' j) :
    ∃ front a b behind, Section.ofSettings settings = front ++ [a, b] ++ behind ∧
      Section.ofSettings settings' = front ++ [b, a] ++ behind := by
  obtain @⟨before, moved, other, behind, hpasses, rfl, -, rfl, -⟩ := h
  cases hpasses with
  | group hmoved hother hat =>
    obtain ⟨a, b, hsections⟩ := exists_sections hmoved hother
    obtain ⟨hdown, hup⟩ := hsections before behind hat
    cases direction with
    | down => exact ⟨_, a, b, _, by simpa [Direction.order] using hdown,
        by simpa [Direction.order, Direction.opposite] using hup⟩
    | up => exact ⟨_, b, a, _, by simpa [Direction.order] using hup,
        by simpa [Direction.order, Direction.opposite] using hdown⟩

/-! ## Moving by one step -/

/-- A move by one step is a step, and every step is made. The settings stay as they are exactly if
there is no setting at the position or nothing on the side that its chunk is moved to. The step is
taken back by one the other way, unless a group was moved up past the settings in front of all
headings, and then it is not. Where a group passes a group, the sections are the same as before,
with these two in the other order. -/
theorem moveBy_exact (i : Nat) (direction : Direction) (settings : List Setting) :
    (∀ settings', moveBy i direction settings = some settings' ↔
      ∃ passed j, Step direction passed settings i settings' j) ∧
    (moveBy i direction settings = none ↔ settings.length ≤ i ∨
      ∃ before chunk after, CutAt settings i before chunk after ∧
        direction.ahead before after = []) ∧
    (moveBy i direction settings = none → perform settings (.moveBy i direction) = settings) ∧
    ∀ passed settings' j, Step direction passed settings i settings' j →
      (moveBy j direction.opposite settings' = some settings ↔ passed ≠ .lead) ∧
      (passed = .lead → direction = .up) ∧
      (passed = .group → ∃ front a b behind,
        Section.ofSettings settings = front ++ [a, b] ++ behind ∧
          Section.ofSettings settings' = front ++ [b, a] ++ behind) := by
  refine ⟨fun settings' => ⟨exists_step_of_moveBy, ?_⟩, ⟨fun hnone => ?_, ?_⟩, fun hnone => ?_,
    fun passed settings' j hstep => ⟨⟨?_, fun hlead => (hstep.opposite hlead).moveBy_eq⟩, ?_, ?_⟩⟩
  · rintro ⟨passed, j, hstep⟩
    exact hstep.moveBy_eq
  · rcases exists_cutAt_or_length_le settings i with ⟨before, chunk, after, hcut⟩ | hi
    · refine Or.inr ⟨before, chunk, after, hcut, ?_⟩
      by_contra hahead
      obtain ⟨passed, settings', j, hstep⟩ := hcut.exists_step hahead
      rw [hstep.moveBy_eq] at hnone
      cases hnone
    · exact Or.inl hi
  · rintro (hi | ⟨before, chunk, after, hcut, hahead⟩)
    · exact moveBy_of_length_le hi
    · exact hcut.moveBy_eq_none hahead
  · rw [perform, hnone]
    rfl
  · rintro hback rfl
    exact hstep.moveBy_ne hback
  · rintro rfl
    exact hstep.of_lead.1
  · rintro rfl
    exact hstep.sections_eq

/-- The first group of the sample passes the other one and comes back, and the last chunk has
nothing to pass. -/
theorem moveBy_exact_sample :
    moveBy 1 .down sampleOutline = some ([.new .classToggle "a"] ++ otherGroup ++ sampleGroup) ∧
    moveBy 3 .up ([.new .classToggle "a"] ++ otherGroup ++ sampleGroup) = some sampleOutline ∧
    (∃ front a b behind, Section.ofSettings sampleOutline = front ++ [a, b] ++ behind ∧
      Section.ofSettings ([.new .classToggle "a"] ++ otherGroup ++ sampleGroup) =
        front ++ [b, a] ++ behind) ∧
    moveBy 4 .down sampleOutline = none ∧
    perform sampleOutline (.moveBy 4 .down) = sampleOutline := by
  have hpasses : Passes .down .group [.new .classToggle "a"] sampleGroup otherGroup [] :=
    .group isGroup_sampleGroup isGroup_otherGroup atHeading_nil
  have hstep : Step .down .group sampleOutline 1
      ([.new .classToggle "a"] ++ otherGroup ++ sampleGroup) 3 :=
    .mk hpasses rfl rfl rfl rfl
  obtain ⟨hmoves, -, -, hstepped⟩ := moveBy_exact 1 .down sampleOutline
  obtain ⟨hback, -, hsections⟩ := hstepped _ _ _ hstep
  have hstay : moveBy 4 .down sampleOutline = none := rfl
  exact ⟨(hmoves _).mpr ⟨_, _, hstep⟩, hback.mpr (by decide), hsections rfl, hstay,
    (moveBy_exact 4 .down sampleOutline).2.2.1 hstay⟩

end Outline

end StyleSnippet
