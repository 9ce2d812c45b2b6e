import Mathlib.Data.List.Basic
import StyleSnippet.Outline.Edit

/-!
# Moves keep the settings

A move exchanges two neighbouring runs of the list of settings, and a deletion takes one run out of
it. So a move leaves the same settings in another order, and a deletion leaves some of them in the
same order. Taking a chunk out and putting it in at another position is such an exchange, too: of
the chunk and the settings between it and that position.

What there is to show is that the runs are where they are meant to be: a chunk ends behind its
start, a neighbour in front starts no later than the chunk, and a neighbour behind stops no earlier.
-/

set_option autoImplicit false

namespace StyleSnippet

/-! ## Runs of a list -/

/-- A list from a position on is a run from there and what follows the run. -/
theorem Span.slice_append_drop {α : Type} {start stop : Nat} (h : start ≤ stop) (l : List α) :
    Span.slice ⟨start, stop⟩ l ++ l.drop stop = l.drop start := by
  have hdrop : l.drop stop = (l.drop start).drop (stop - start) := by
    rw [List.drop_drop, Nat.add_sub_cancel' h]
  rw [slice, hdrop, List.take_append_drop]

namespace Outline

variable {settings settings' : List Setting} {c : Span}

section Runs

variable {α : Type} {start stop target : Nat}

/-- A run that is put in further to the front changes places with the items that it is put in front
of. -/
theorem putIn_outside_of_le (hback : target ≤ start) {l : List α} (hbound : start ≤ l.length) :
    putIn target (Span.slice ⟨start, stop⟩ l) (Span.outside ⟨start, stop⟩ l) =
      exchange target start stop l := by
  have hnone : target - (l.take start).length = 0 := by
    rw [List.length_take_of_le hbound]
    omega
  have hfront : (Span.outside ⟨start, stop⟩ l).take target = l.take target := by
    rw [Span.outside, List.take_append, hnone, List.take_take, Nat.min_eq_left hback,
      List.take_zero, List.append_nil]
  have hbehind : (Span.outside ⟨start, stop⟩ l).drop target =
      Span.slice ⟨target, start⟩ l ++ l.drop stop := by
    rw [Span.outside, List.drop_append, hnone, List.drop_take, List.drop_zero]
    rfl
  rw [putIn, hfront, hbehind, exchange, List.append_assoc _ _ (l.drop stop)]

/-- A run that is put in further to the end changes places with the items up to there. Without the
run, these end at a position that is smaller by its length. -/
theorem putIn_outside_of_ge (hle : start ≤ stop) (hforward : stop ≤ target) {l : List α}
    (hbound : target ≤ l.length) :
    putIn (target - (stop - start)) (Span.slice ⟨start, stop⟩ l) (Span.outside ⟨start, stop⟩ l) =
      exchange start stop target l := by
  have hlength : (l.take start).length = start := List.length_take_of_le (by omega)
  have hplace : target - (stop - start) = (l.take start).length + (target - stop) := by omega
  have hdrop : (l.drop stop).drop (target - stop) = l.drop target := by
    rw [List.drop_drop, Nat.add_sub_cancel' hforward]
  rw [putIn, Span.outside, hplace, List.take_length_add_append, List.drop_length_add_append, hdrop]
  rfl

end Runs

/-- Exchanging two neighbouring runs changes nothing but the order. -/
theorem exchange_perm {α : Type} {start middle stop : Nat} (h₁ : start ≤ middle)
    (h₂ : middle ≤ stop) (l : List α) : (exchange start middle stop l).Perm l := by
  have hsplit : l = l.take start ++ (Span.slice ⟨start, middle⟩ l ++
      (Span.slice ⟨middle, stop⟩ l ++ l.drop stop)) := by
    rw [Span.slice_append_drop h₂, Span.slice_append_drop h₁, List.take_append_drop]
  conv_rhs => rw [hsplit]
  rw [exchange, List.append_assoc, List.append_assoc]
  refine List.Perm.append_left _ ?_
  rw [← List.append_assoc, ← List.append_assoc]
  exact List.perm_append_comm.append_right _

/-! ## Where runs start and stop -/

/-- A chunk starts at the position that it is asked for, and holds the setting there. -/
theorem of_chunk? {i : Nat} (h : chunk? settings i = some c) : c.start = i ∧ i < c.stop := by
  obtain ⟨s, -, rfl⟩ := Option.map_eq_some_iff.mp h
  refine ⟨rfl, ?_⟩
  show i < if s.isHeading then nextHeading settings (i + 1) else i + 1
  split
  · exact le_nextHeading settings (i + 1)
  · exact Nat.lt_succ_self i

/-- A chunk that there is starts in the list. -/
theorem lt_length_of_chunk? {i : Nat} (h : chunk? settings i = some c) : i < settings.length := by
  obtain ⟨s, hs, -⟩ := Option.map_eq_some_iff.mp h
  exact (List.getElem?_eq_some_iff.mp hs).1

/-- There is a chunk at every position of the list, and at no other. -/
theorem chunk?_eq_none_iff {i : Nat} : chunk? settings i = none ↔ settings.length ≤ i := by
  rw [chunk?, Option.map_eq_none_iff, List.getElem?_eq_none_iff]

/-- A group starts no later than a position in it. -/
theorem groupStart_le (settings : List Setting) (i : Nat) : groupStart settings i ≤ i := by
  induction i with
  | zero => exact Nat.le_refl 0
  | succ i ih =>
    rw [groupStart]
    split
    · exact Nat.le_refl _
    · exact Nat.le_succ_of_le ih

/-- A neighbour in front starts no later than the chunk. -/
theorem neighbourStart_le (settings : List Setting) (c : Span) :
    neighbourStart settings c ≤ c.start := by
  rw [neighbourStart]
  split
  · exact Nat.le_trans (groupStart_le settings _) (Nat.sub_le _ _)
  · exact Nat.sub_le _ _

/-- A neighbour behind stops no earlier than the chunk. -/
theorem le_neighbourStop (settings : List Setting) (c : Span) :
    c.stop ≤ neighbourStop settings c := by
  rw [neighbourStop]
  split
  · exact Nat.le_trans (Nat.le_succ _) (le_nextHeading settings _)
  · exact Nat.le_succ _

/-! ## Moves and deletions -/

/-- A move by one step changes nothing but the order. -/
theorem perm_of_moveBy {i : Nat} {direction : Direction}
    (h : moveBy i direction settings = some settings') : settings'.Perm settings := by
  obtain ⟨c, hc, hmove⟩ := Option.bind_eq_some_iff.mp h
  obtain ⟨hstart, hstop⟩ := of_chunk? hc
  have hle : c.start ≤ c.stop := by omega
  cases direction with
  | up =>
    obtain ⟨-, hmove⟩ := Option.ite_none_left_eq_some.mp hmove
    obtain rfl := Option.some.inj hmove
    exact exchange_perm (neighbourStart_le settings c) hle settings
  | down =>
    obtain ⟨-, hmove⟩ := Option.ite_none_left_eq_some.mp hmove
    obtain rfl := Option.some.inj hmove
    exact exchange_perm hle (le_neighbourStop settings c) settings

/-- A move to a position exchanges the chunk with the settings between it and the position, unless
the position is out of bounds, in the chunk or at its end. -/
theorem moveTo_eq_exchange {i : Nat} (hc : chunk? settings i = some c) (target : Nat) :
    moveTo i target settings =
      if settings.length < target then none
      else if target < c.start then some (exchange target c.start c.stop settings)
      else if c.stop < target then some (exchange c.start c.stop target settings)
      else none := by
  obtain ⟨hstart, hstop⟩ := of_chunk? hc
  have hin : c.start < settings.length := hstart ▸ lt_length_of_chunk? hc
  rw [moveTo, hc, Option.bind_eq_bind, Option.bind_some]
  by_cases hbound : settings.length < target
  · rw [if_pos (Or.inl hbound), if_pos hbound]
  by_cases hback : target < c.start
  · have hmoved : ¬ (settings.length < target ∨ c.start ≤ target ∧ target ≤ c.stop) := by omega
    have hplace : ¬ c.stop < target := by omega
    rw [if_neg hmoved, if_neg hbound, if_pos hback, if_neg hplace]
    exact congrArg some (putIn_outside_of_le (Nat.le_of_lt hback) (Nat.le_of_lt hin))
  by_cases hforward : c.stop < target
  · have hmoved : ¬ (settings.length < target ∨ c.start ≤ target ∧ target ≤ c.stop) := by omega
    have hle : c.start ≤ c.stop := by omega
    rw [if_neg hmoved, if_neg hbound, if_neg hback, if_pos hforward, if_pos hforward]
    exact congrArg some
      (putIn_outside_of_ge hle (Nat.le_of_lt hforward) (Nat.le_of_not_lt hbound))
  · have hstay : settings.length < target ∨ c.start ≤ target ∧ target ≤ c.stop := by omega
    rw [if_pos hstay, if_neg hbound, if_neg hback, if_neg hforward]

/-- A move to a position changes nothing but the order. -/
theorem perm_of_moveTo {i target : Nat} (h : moveTo i target settings = some settings') :
    settings'.Perm settings := by
  obtain ⟨c, hc, -⟩ := Option.bind_eq_some_iff.mp h
  obtain ⟨hstart, hstop⟩ := of_chunk? hc
  have hle : c.start ≤ c.stop := by omega
  rw [moveTo_eq_exchange hc] at h
  obtain ⟨-, hmove⟩ := Option.ite_none_left_eq_some.mp h
  split at hmove
  · next hfront =>
    obtain rfl := Option.some.inj hmove
    exact exchange_perm (Nat.le_of_lt hfront) hle settings
  · split at hmove
    · next hbehind =>
      obtain rfl := Option.some.inj hmove
      exact exchange_perm hle (Nat.le_of_lt hbehind) settings
    · cases hmove

/-- A deletion leaves the other settings in their order. -/
theorem sublist_delete (i : Nat) (settings : List Setting) :
    (delete i settings).1.Sublist settings := by
  rw [delete]
  split
  · next c hc =>
    obtain ⟨hstart, hstop⟩ := of_chunk? hc
    have hle : c.start ≤ c.stop := by omega
    have hbehind : (settings.drop c.stop).Sublist (settings.drop c.start) := by
      rw [← Span.slice_append_drop hle]
      exact List.sublist_append_right _ _
    have := (List.Sublist.refl (settings.take c.start)).append hbehind
    rwa [List.take_append_drop] at this
  · exact List.Sublist.refl _

end Outline

end StyleSnippet
