import Mathlib.Data.List.Flatten
import Mathlib.Data.List.Nodup
import Mathlib.Data.List.Perm.Basic
import StyleSnippet.Outline.Add
import StyleSnippet.Proofs.Outline.Moves
import StyleSnippet.Proofs.Settings.Forest

/-!
# Ids stay distinct

The id of a new setting is the first that is free among its base and the numbered forms of the
base. There is a free one, since there are more of these than ids that are taken, and so no edit
gives two settings one id: a new setting has an id of its own, a deletion takes settings away, and
a move only changes their order.
-/

set_option autoImplicit false

namespace StyleSnippet.Outline

open Setting

variable {settings settings' : List Setting} {taken : List Text} {base : Text}

/-! ## The ids of a list of settings -/

/-- A forest is visited tree by tree. -/
theorem depthFirstAll_eq_flatMap (settings : List Setting) :
    depthFirstAll settings = settings.flatMap depthFirst := by
  induction settings with
  | nil => rfl
  | cons s rest ih => rw [depthFirstAll, List.flatMap_cons, ih]

/-- The ids of a forest are those of its settings, depth first. -/
theorem ids_eq (settings : List Setting) :
    ids settings = settings.flatMap fun s => (depthFirst s).map (·.id) := by
  rw [ids, Visit.toList_eq, Visit.start, List.flatMap_singleton, depthFirstAll_eq_flatMap,
    List.map_flatMap]

/-- The ids of settings in another order. -/
theorem perm_ids (h : settings'.Perm settings) : (ids settings').Perm (ids settings) := by
  rw [ids_eq, ids_eq]
  exact h.flatMap_right _

/-- The ids of some of the settings. -/
theorem sublist_ids (h : settings'.Sublist settings) : (ids settings').Sublist (ids settings) := by
  rw [ids_eq, ids_eq]
  exact h.flatMap _

/-- A new setting has one id, since nothing is nested in it. -/
theorem ids_concat_new (type : SettingType) (id : Text) (settings : List Setting) :
    ids (settings ++ [Setting.new type id]) = ids settings ++ [id] := by
  rw [ids_eq, ids_eq, List.flatMap_append]
  rfl

/-! ## Free ids -/

/-- What a search for a free id comes by in turn: the base, and its numbered forms from two on, one
of which is `id`, and nothing in front of that is free. -/
inductive FirstFree (taken : List Text) (base : Text) : (id : Text) → Prop
  | base : base ∉ taken → FirstFree taken base base
  | numbered (n : Nat) : 2 ≤ n → base ∈ taken → (∀ k, 2 ≤ k → k < n → numberedId base k ∈ taken) →
    numberedId base n ∉ taken → FirstFree taken base (numberedId base n)

/-- A number can be told from its digits. -/
theorem ofNat_injective : Function.Injective Text.ofNat := by
  intro m n h
  have hread := congrArg (fun digits => Nat.ofDigitChars 10 digits 0) h
  simpa [Text.ofNat] using hread

/-- Two numbers behind one base make two ids. -/
theorem numberedId_injective (base : Text) : Function.Injective (numberedId base) := by
  intro m n h
  have hbehind := List.append_cancel_left h
  exact ofNat_injective (List.cons.inj hbehind).2

/-- The base and its first numbered forms. -/
def candidates (base : Text) (n : Nat) : List Text :=
  base :: (List.range n).map fun i => numberedId base (i + 2)

/-- The ids that are tried first are all different. -/
theorem nodup_candidates (base : Text) (n : Nat) : (candidates base n).Nodup := by
  rw [candidates, List.nodup_cons]
  refine ⟨?_, List.nodup_range.map fun i j h => ?_⟩
  · -- A numbered form is longer than the base.
    intro hmem
    obtain ⟨i, -, hi⟩ := List.mem_map.mp hmem
    have hlen := congrArg List.length hi
    simp [numberedId] at hlen
  · have := numberedId_injective base h
    omega

/-- Of one more ids than are taken, one is free. -/
theorem exists_free (taken : List Text) (base : Text) :
    ∃ id ∈ candidates base taken.length, id ∉ taken := by
  by_contra hall
  push Not at hall
  have hle := (List.subperm_of_subset (nodup_candidates base taken.length) hall).length_le
  simp only [candidates, List.length_cons, List.length_map, List.length_range] at hle
  omega

/-- The id that is found is the first free one. -/
theorem firstFree_freeId (taken : List Text) (base : Text) :
    FirstFree taken base (freeId taken base) := by
  by_cases hbase : base ∈ taken
  · obtain ⟨free, hmem, hfree⟩ := exists_free taken base
    rcases List.mem_cons.mp hmem with rfl | hmem
    · exact absurd hbase hfree
    obtain ⟨i, hi, rfl⟩ := List.mem_map.mp hmem
    -- One of the numbers is free, so the search ends at the first of them that is.
    have hsome :
        ((List.range taken.length).find? fun i => numberedId base (i + 2) ∉ taken).isSome :=
      List.find?_isSome.mpr ⟨i, hi, by simpa using hfree⟩
    obtain ⟨n, hn⟩ := Option.isSome_iff_exists.mp hsome
    obtain ⟨hnot, -, hbelow⟩ := List.find?_range_eq_some.mp hn
    have hfind : ((List.range taken.length).map fun i => numberedId base (i + 2)).find?
        (fun id => decide (id ∉ taken)) = some (numberedId base (n + 2)) := by
      rw [List.find?_map]
      exact congrArg (Option.map _) hn
    have heq : freeId taken base = numberedId base (n + 2) := by
      simp only [freeId]
      rw [List.find?_cons_of_neg (by simpa using hbase), hfind, Option.getD_some]
    rw [heq]
    refine .numbered (n + 2) (by omega) hbase (fun k hk hlt => ?_) (by simpa using hnot)
    have htaken := hbelow (k - 2) (by omega)
    simpa [Nat.sub_add_cancel hk] using htaken
  · have heq : freeId taken base = base := by
      simp [freeId, hbase]
    rw [heq]
    exact .base hbase

/-- A free id is not taken. -/
theorem FirstFree.not_mem {id : Text} (h : FirstFree taken base id) : id ∉ taken := by
  cases h with
  | base hfree => exact hfree
  | numbered _ _ _ _ hfree => exact hfree

/-- The id of a new setting is the first free one, and no setting has it. -/
theorem firstFree_newId (type : SettingType) (millis : Nat) (settings : List Setting) :
    FirstFree (ids settings) (baseId type millis) (newId type millis settings) :=
  firstFree_freeId _ _

/-! ## Edits -/

/-- What can be done to a list of settings. -/
inductive Edit
  /-- A setting of a type is added at a time, which need not be later than that of edits before. -/
  | add (type : SettingType) (millis : Nat)
  | delete (i : Nat)
  | moveBy (i : Nat) (direction : Direction)
  | moveTo (i target : Nat)

/-- The settings behind an edit. A move that is refused leaves them as they were. -/
def perform (settings : List Setting) : Edit → List Setting
  | .add type millis => add type millis settings
  | .delete i => (delete i settings).1
  | .moveBy i direction => (moveBy i direction settings).getD settings
  | .moveTo i target => (moveTo i target settings).getD settings

/-- The settings behind a list of edits. -/
def run (settings : List Setting) (edits : List Edit) : List Setting := edits.foldl perform settings

/-- No edit gives two settings one id. -/
theorem nodup_ids_perform (h : (ids settings).Nodup) (edit : Edit) :
    (ids (perform settings edit)).Nodup := by
  cases edit with
  | add type millis =>
    rw [perform, add, ids_concat_new, List.nodup_append_comm, List.singleton_append,
      List.nodup_cons]
    exact ⟨(firstFree_newId type millis settings).not_mem, h⟩
  | delete i => exact h.sublist (sublist_ids (sublist_delete i settings))
  | moveBy i direction =>
    rw [perform]
    cases hmove : moveBy i direction settings with
    | none => exact h
    | some moved => exact (perm_ids (perm_of_moveBy hmove)).nodup_iff.mpr h
  | moveTo i target =>
    rw [perform]
    cases hmove : moveTo i target settings with
    | none => exact h
    | some moved => exact (perm_ids (perm_of_moveTo hmove)).nodup_iff.mpr h

/-- The ids of a config stay distinct over a run of edits. -/
theorem nodup_ids_run (h : (ids settings).Nodup) (edits : List Edit) :
    (ids (run settings edits)).Nodup := by
  induction edits generalizing settings with
  | nil => exact h
  | cons edit edits ih => exact ih (nodup_ids_perform h edit)

/-- If the ids of all settings are distinct, nested ones included, they stay so over every run of
edits. A setting that is added at any point of the run goes behind the others, which are left as
they are, and its id is the first free one for its type and the time. -/
theorem ids_stay_distinct (h : (ids settings).Nodup) (edits : List Edit) :
    (ids (run settings edits)).Nodup ∧
      ∀ type millis, ∃ id, FirstFree (ids (run settings edits)) (baseId type millis) id ∧
        run settings (edits ++ [.add type millis]) =
          run settings edits ++ [Setting.new type id] := by
  refine ⟨nodup_ids_run h edits, fun type millis => ⟨_, firstFree_newId type millis _, ?_⟩⟩
  rw [run, List.foldl_append, ← run]
  rfl

/-- A heading that has the base for the time 7 for its id, with its second form nested in it. -/
def sampleSettings : List Setting :=
  [{ Setting.new .heading (baseId .heading 7) with
      nested := [Setting.new .infoText (numberedId (baseId .heading 7) 2)] },
    Setting.new .classToggle "a"]

/-- The clock stands still, and then goes back. -/
def sampleEdits : List Edit :=
  [.add .heading 7, .moveBy 0 .down, .add .heading 7, .delete 0, .moveTo 1 0, .add .heading 5]

/-- A run over the sample adds settings, moves them and takes some out: their ids stay distinct, and
a further one gets the first free id. -/
theorem ids_stay_distinct_sample :
    (ids sampleSettings).Nodup ∧ (ids (run sampleSettings sampleEdits)).Nodup ∧
      (run sampleSettings sampleEdits).map (·.id) = ["a".toList, "new-heading-7".toList,
        "new-heading-7-4".toList, "new-heading-5".toList] ∧
      ∃ id, FirstFree (ids (run sampleSettings sampleEdits)) "new-heading-7" id ∧
        run sampleSettings (sampleEdits ++ [.add .heading 7]) =
          run sampleSettings sampleEdits ++ [Setting.new .heading id] := by
  have hstart : (ids sampleSettings).Nodup := by
    rw [ids_eq]
    decide
  obtain ⟨hids, hadd⟩ := ids_stay_distinct hstart sampleEdits
  refine ⟨hstart, hids, ?_, hadd .heading 7⟩
  decide +kernel

end StyleSnippet.Outline
