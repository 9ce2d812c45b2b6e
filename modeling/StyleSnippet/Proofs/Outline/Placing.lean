import StyleSnippet.Proofs.Outline.Groups
import StyleSnippet.Proofs.Outline.Ids

/-!
# Moving a chunk to a position

The position that a chunk is moved to is told in the list as it is before the move. The chunk comes
to stand behind the settings in front of that position, its own aside, and in front of all others.
-/

set_option autoImplicit false

namespace StyleSnippet.Outline

variable {settings settings' before chunk after : List Setting} {i target : Nat}

/-! ## Items by position -/

section Items

variable {α : Type} {test : Nat → Bool} {l : List α}

/-- The items of a list at the positions that a test accepts, in order. -/
def itemsAt (test : Nat → Bool) (l : List α) : List α :=
  (l.zipIdx.filter fun item => test item.2).map Prod.fst

/-- What stands at some positions of two lists stands at those of the first and, counted from its
end, at those of the second. -/
theorem itemsAt_append (test : Nat → Bool) (l r : List α) :
    itemsAt test (l ++ r) = itemsAt test l ++ itemsAt (fun p => test (l.length + p)) r := by
  have hbehind : (r.zipIdx l.length).filter (fun item => test item.2) =
      (r.zipIdx.filter fun item => test (l.length + item.2)).map
        fun item => (item.1, l.length + item.2) := by
    rw [List.zipIdx_eq_map_add, List.filter_map]
    rfl
  simp only [itemsAt, List.zipIdx_append, List.filter_append, List.map_append, Nat.zero_add,
    hbehind, List.map_map]
  rfl

/-- Where a test says the same of all positions, all items stand there or none. -/
theorem itemsAt_of_forall {keep : Bool} (h : ∀ p < l.length, test p = keep) :
    itemsAt test l = if keep then l else [] := by
  have hall : ∀ item ∈ l.zipIdx, test item.2 = keep := by
    intro item hitem
    have hlt := List.snd_lt_of_mem_zipIdx hitem
    exact h _ (by omega)
  rw [itemsAt, List.filter_congr hall]
  cases keep with
  | false => simp
  | true => simp [List.zipIdx_map_fst]

/-- A test that takes each part of a list as a whole. -/
theorem itemsAt_parts {a b c d : List α} (inA inB inC inD : Bool)
    (ha : ∀ p < a.length, test p = inA)
    (hb : ∀ p < b.length, test (a.length + p) = inB)
    (hc : ∀ p < c.length, test (a.length + b.length + p) = inC)
    (hd : ∀ p < d.length, test (a.length + b.length + c.length + p) = inD) :
    itemsAt test (a ++ b ++ c ++ d) = (if inA then a else []) ++ (if inB then b else []) ++
      (if inC then c else []) ++ if inD then d else [] := by
  rw [itemsAt_append, itemsAt_append, itemsAt_append, List.length_append, List.length_append,
    List.length_append, itemsAt_of_forall ha, itemsAt_of_forall hb, itemsAt_of_forall hc,
    itemsAt_of_forall hd]

end Items

/-! ## Where the chunk goes -/

/-- The settings in front of a position, the `n` from position `i` on aside. -/
def leading (i n target : Nat) (settings : List Setting) : List Setting :=
  itemsAt (fun p => p < target ∧ ¬ (i ≤ p ∧ p < i + n)) settings

/-- The settings from a position on, the `n` from position `i` on aside. -/
def trailing (i n target : Nat) (settings : List Setting) : List Setting :=
  itemsAt (fun p => target ≤ p ∧ ¬ (i ≤ p ∧ p < i + n)) settings

/-- What is around a chunk that goes forward. -/
theorem around_forward (before chunk between behind : List Setting) :
    let target := before.length + chunk.length + between.length
    let settings := before ++ chunk ++ between ++ behind
    leading before.length chunk.length target settings = before ++ between ∧
      trailing before.length chunk.length target settings = behind := by
  constructor
  · rw [leading, itemsAt_parts true false true false]
    · simp
    all_goals grind
  · rw [trailing, itemsAt_parts false false false true]
    · simp
    all_goals grind

/-- What is around a chunk that goes back. -/
theorem around_back (front between chunk after : List Setting) :
    let i := front.length + between.length
    let settings := front ++ between ++ chunk ++ after
    leading i chunk.length front.length settings = front ∧
      trailing i chunk.length front.length settings = between ++ after := by
  constructor
  · rw [leading, itemsAt_parts true false false false]
    · simp
    all_goals grind
  · rw [trailing, itemsAt_parts false true false true]
    · simp
    all_goals grind

/-! ## The move -/

/-- The chunk is exchanged with the settings between it and the target. -/
theorem CutAt.moveTo_eq (hcut : CutAt settings i before chunk after) (target : Nat) :
    moveTo i target settings =
      if settings.length < target then none
      else if target < i then some (exchange target i (i + chunk.length) settings)
      else if i + chunk.length < target then
        some (exchange i (i + chunk.length) target settings)
      else none :=
  moveTo_eq_exchange hcut.chunk?_eq target

/-- A chunk that can be moved goes between the settings in front of the target and those from the
target on, which are all that are not in it, in their order. -/
theorem CutAt.moveTo_around (hcut : CutAt settings i before chunk after)
    (hbound : target ≤ settings.length) (hout : ¬ (i ≤ target ∧ target ≤ i + chunk.length)) :
    moveTo i target settings = some (leading i chunk.length target settings ++ chunk ++
        trailing i chunk.length target settings) ∧
      leading i chunk.length target settings ++ trailing i chunk.length target settings =
        before ++ after := by
  rw [hcut.moveTo_eq, if_neg (Nat.not_lt.mpr hbound)]
  obtain ⟨rfl, rfl, -⟩ := hcut
  by_cases hback : target < before.length
  · -- The chunk changes places with the settings between the target and it.
    rw [if_pos hback]
    obtain ⟨front, between, rfl, rfl⟩ :
        ∃ front between, before = front ++ between ∧ front.length = target :=
      ⟨before.take target, before.drop target, (List.take_append_drop _ _).symm,
        List.length_take_of_le (Nat.le_of_lt hback)⟩
    obtain ⟨hlead, htrail⟩ := around_back front between chunk after
    have hmove := exchange_append front between chunk after
    rw [List.length_append]
    rw [hlead, htrail, hmove]
    simp
  · -- It changes places with the settings between it and the target.
    have hforward : before.length + chunk.length < target := by omega
    rw [if_neg hback, if_pos hforward]
    obtain ⟨between, behind, rfl, hlength⟩ : ∃ between behind, after = between ++ behind ∧
        before.length + chunk.length + between.length = target := by
      simp only [List.length_append] at hbound
      refine ⟨after.take (target - (before.length + chunk.length)), after.drop _,
        (List.take_append_drop _ _).symm, ?_⟩
      rw [List.length_take_of_le (by omega)]
      omega
    subst hlength
    obtain ⟨hlead, htrail⟩ := around_forward before chunk between behind
    have hmove := exchange_append before chunk between behind
    rw [← List.append_assoc (before ++ chunk), hlead, htrail, hmove]
    simp

/-- A move to a position that is out of bounds, inside of the chunk or at its end is refused. -/
theorem CutAt.of_moveTo (hcut : CutAt settings i before chunk after)
    (hmove : moveTo i target settings = some settings') :
    target ≤ settings.length ∧ ¬ (i ≤ target ∧ target ≤ i + chunk.length) := by
  rw [hcut.moveTo_eq] at hmove
  obtain ⟨hbound, hmove⟩ := Option.ite_none_left_eq_some.mp hmove
  refine ⟨Nat.le_of_not_lt hbound, fun ⟨hlow, hhigh⟩ => ?_⟩
  rw [if_neg (Nat.not_lt.mpr hlow), if_neg (Nat.not_lt.mpr hhigh)] at hmove
  cases hmove

/-- A chunk is moved exactly if there is one, and the target is no further than the end and neither
inside of the chunk nor at its end. It then stands between the settings in front of the target and
those from the target on, and these are the other settings in their order. A move that is refused
leaves the settings as they are, and no move loses or doubles one. -/
theorem moveTo_exact (i target : Nat) (settings : List Setting) :
    (∀ settings', moveTo i target settings = some settings' ↔
      ∃ before chunk after, CutAt settings i before chunk after ∧ target ≤ settings.length ∧
        ¬ (i ≤ target ∧ target ≤ i + chunk.length) ∧
        settings' = leading i chunk.length target settings ++ chunk ++
          trailing i chunk.length target settings ∧
        leading i chunk.length target settings ++ trailing i chunk.length target settings =
          before ++ after) ∧
    (moveTo i target settings = none → perform settings (.moveTo i target) = settings) ∧
    (perform settings (.moveTo i target)).Perm settings := by
  refine ⟨fun settings' => ⟨fun hmove => ?_, ?_⟩, fun hnone => ?_, ?_⟩
  · rcases exists_cutAt_or_length_le settings i with ⟨before, chunk, after, hcut⟩ | hi
    · obtain ⟨hbound, hout⟩ := hcut.of_moveTo hmove
      obtain ⟨hsome, horder⟩ := hcut.moveTo_around hbound hout
      rw [hmove] at hsome
      exact ⟨before, chunk, after, hcut, hbound, hout, Option.some.inj hsome, horder⟩
    · rw [moveTo, chunk?_eq_none_iff.mpr hi] at hmove
      cases hmove
  · rintro ⟨before, chunk, after, hcut, hbound, hout, rfl, -⟩
    exact (hcut.moveTo_around hbound hout).1
  · rw [perform, hnone]
    rfl
  · rw [perform]
    cases hmove : moveTo i target settings with
    | none => exact List.Perm.refl _
    | some moved => exact perm_of_moveTo hmove

/-- A group of the sample goes behind the other one, and into the other one it cannot go. -/
theorem moveTo_exact_sample : moveTo 1 6 sampleOutline =
      some ([.new .classToggle "a"] ++ otherGroup ++ sampleGroup) ∧
    (perform sampleOutline (.moveTo 1 6)).Perm sampleOutline ∧
    moveTo 1 4 sampleOutline = none ∧ perform sampleOutline (.moveTo 1 4) = sampleOutline := by
  have hcut : CutAt sampleOutline 1 [.new .classToggle "a"] sampleGroup otherGroup :=
    ⟨rfl, rfl, .group isGroup_sampleGroup (by decide)⟩
  obtain ⟨hmoves, -, hperm⟩ := moveTo_exact 1 6 sampleOutline
  have hstay : moveTo 1 4 sampleOutline = none := rfl
  exact ⟨(hmoves _).mpr ⟨_, _, _, hcut, by decide, by decide, rfl, rfl⟩, hperm, hstay,
    (moveTo_exact 1 4 sampleOutline).2.1 hstay⟩

end StyleSnippet.Outline
