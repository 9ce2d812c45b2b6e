import StyleSnippet.Css.Selector
import StyleSnippet.Proofs.Css.Code
import StyleSnippet.Proofs.Css.Comment
import StyleSnippet.Proofs.Text.Lines

/-!
# Confining a selector list

A selector list that is confined falls into as many selectors as before, each of them the old one
confined, because the class is put in at places of code where it changes neither the mode nor the
bracket depth. A selector that is confined starts with the class, comments aside, so confining it
again changes nothing.
-/

set_option autoImplicit false

namespace StyleSnippet.Css

open Text

variable {scope s t : Text} {m : Mode} {d : Nat}

/-! ## Text without a top-level comma -/

/-- The bracket depth after a text. -/
def depthAfter (m : Mode) (d : Nat) : Text → Nat
  | [] => d
  | c :: r => depthAfter (m.next c) (if m.isCode then bracketDepth d c else d) r

/-- The depth behind two texts, one behind the other. -/
theorem depthAfter_append (m : Mode) (d : Nat) (s t : Text) :
    depthAfter m d (s ++ t) = depthAfter (m.after s) (depthAfter m d s) t := by
  induction s generalizing m d with
  | nil => rfl
  | cons c r ih => exact ih _ _

/-- A text, read in the given mode and at the given depth, that no comma splits. -/
def Solid (m : Mode) (d : Nat) : Text → Prop
  | [] => True
  | c :: r =>
    ¬ (m.isCode ∧ c = ',' ∧ d = 0) ∧ Solid (m.next c) (if m.isCode then bracketDepth d c else d) r

/-- Text without a top-level comma belongs to the first part. -/
theorem splitFrom_append (h : Solid m d s) (t : Text) :
    splitFrom m d (s ++ t) =
      (s ++ (splitFrom (m.after s) (depthAfter m d s) t).1,
        (splitFrom (m.after s) (depthAfter m d s) t).2) := by
  induction s generalizing m d with
  | nil => rfl
  | cons c r ih =>
    rw [List.cons_append, splitFrom, if_neg h.1, ih h.2]
    rfl

/-- Text that no comma splits is one selector. -/
theorem splitFrom_of_solid (h : Solid m d s) : splitFrom m d s = (s, []) := by
  simpa [splitFrom] using splitFrom_append h []

/-- Code goes on as code behind a comma. -/
theorem Mode.next_comma (hm : m.isCode = true) : m.next ',' = .code :=
  next_of_isCode hm (by decide)

/-- A comma in code at depth zero ends a part. -/
theorem splitFrom_comma (hm : m.isCode = true) (t : Text) :
    splitFrom m 0 (',' :: t) = ([], splitSelectors t) := by
  rw [splitFrom, if_pos ⟨hm, rfl, rfl⟩, hm, Mode.next_comma hm]
  rfl

/-- The first part of a text ends with the text, or at a comma in code at depth zero. -/
theorem exists_first_part (m : Mode) (d : Nat) (t : Text) : ∃ s, Solid m d s ∧
    (t = s ∨ ∃ r, t = s ++ ',' :: r ∧ (m.after s).isCode = true ∧ depthAfter m d s = 0) := by
  induction t generalizing m d with
  | nil => exact ⟨[], trivial, Or.inl rfl⟩
  | cons c r ih =>
    by_cases hc : m.isCode ∧ c = ',' ∧ d = 0
    · obtain ⟨hm, rfl, rfl⟩ := hc
      exact ⟨[], trivial, Or.inr ⟨r, rfl, hm, rfl⟩⟩
    · obtain ⟨s, hs, h⟩ := ih (m.next c) (if m.isCode then bracketDepth d c else d)
      refine ⟨c :: s, ⟨hc, hs⟩, ?_⟩
      rcases h with rfl | ⟨r', rfl, hm, hd⟩
      · exact Or.inl rfl
      · exact Or.inr ⟨r', rfl, hm, hd⟩

/-- What holds of a text that is one selector, and goes through from the rest of a list to the
list, holds of every list and its selectors. -/
theorem splitSelectors_induction {motive : Text → List Text → Prop}
    (one : ∀ s, Solid .code 0 s → motive s [s])
    (cons : ∀ s r, Solid .code 0 s → (Mode.after .code s).isCode = true →
      depthAfter .code 0 s = 0 → motive r (splitSelectors r) →
      motive (s ++ ',' :: r) (s :: splitSelectors r))
    (t : Text) : motive t (splitSelectors t) := by
  induction hl : t.length using Nat.strong_induction_on generalizing t with
  | _ n ih =>
    obtain ⟨s, hs, rfl | ⟨r, rfl, hm, hd⟩⟩ := exists_first_part .code 0 t
    · have h := one t hs
      rwa [splitSelectors, splitFrom_of_solid hs]
    · have hr := ih r.length (by simp [← hl]; omega) r rfl
      have h := cons s r hs hm hd hr
      rwa [splitSelectors, splitFrom_append hs, hd, splitFrom_comma hm, List.append_nil]

/-- A list has at least one selector. -/
theorem exists_splitSelectors (t : Text) : ∃ s ps, splitSelectors t = s :: ps := ⟨_, _, rfl⟩

/-- The selectors of a list make up the list. -/
theorem intercalate_splitSelectors (t : Text) : [','].intercalate (splitSelectors t) = t := by
  induction t using splitSelectors_induction with
  | one s _ => simp [List.intercalate]
  | cons s r _ _ _ ih =>
    obtain ⟨q, qs, hq⟩ := exists_splitSelectors r
    rw [hq, intercalate_cons] at ih
    rw [hq, intercalate_cons, List.flatMap_cons, List.append_assoc, ih]
    rfl

/-! ## Insertions and the structure of a list -/

/-- Inert text changes neither the depth nor where a text is split. -/
theorem solid_inert_append {u : Text} (hu : ∀ c ∈ u, Inert c) (d : Nat) (t : Text) :
    (Solid .code d (u ++ t) ↔ Solid .code d t) ∧
      depthAfter .code d (u ++ t) = depthAfter .code d t := by
  induction u with
  | nil => exact ⟨Iff.rfl, rfl⟩
  | cons c r ih =>
    obtain ⟨hc, hr⟩ := List.forall_mem_cons.mp hu
    have hnext : Mode.next .code c = .code := hc.afterCode
    have hdepth : bracketDepth d c = d := by
      rw [bracketDepth, if_neg, if_neg]
      · rintro (h | h) <;> exact hc.ne (by decide) h
      · rintro (h | h) <;> exact hc.ne (by decide) h
    have hcomma : c ≠ ',' := hc.ne (by decide)
    simpa [Solid, depthAfter, hnext, hdepth, hcomma, Mode.isCode] using ih hr

/-- The class changes neither the depth nor where a text is split. -/
theorem solid_class (hs : ScopeClass scope) (d : Nat) (t : Text) :
    (Solid .code d (scope ++ ' ' :: t) ↔ Solid .code d t) ∧
      depthAfter .code d (scope ++ ' ' :: t) = depthAfter .code d t := by
  obtain ⟨hsolid, hdepth⟩ := solid_inert_append hs.inert d (' ' :: t)
  have hnext : Mode.next .code ' ' = .code := rfl
  have hspace : bracketDepth d ' ' = d := rfl
  rw [hsolid, hdepth]
  simp [Solid, depthAfter, hnext, hspace, Mode.isCode]

/-- Insertions keep a text without top-level commas so, and keep its depth. -/
theorem Insertion.solid (hs : ScopeClass scope) (h : Insertion scope m s t) (hsolid : Solid m d s) :
    Solid m d t ∧ depthAfter m d t = depthAfter m d s := by
  induction h generalizing d with
  | nil => exact ⟨hsolid, rfl⟩
  | keep m c _ ih => exact ⟨⟨hsolid.1, (ih hsolid.2).1⟩, (ih hsolid.2).2⟩
  | put c _ _ ih =>
    have hclass := solid_class hs d
    exact ⟨(hclass _).1.mpr (ih hsolid).1, (hclass _).2.trans (ih hsolid).2⟩

/-! ## One selector -/

/-- A selector that is confined is the selector with the class put in. -/
theorem insertion_prefixSelector (scope s : Text) :
    Insertion scope .code s (prefixSelector scope s) := by
  unfold prefixSelector
  split
  · exact Insertion.refl scope .code s
  · cases hcut : cutLead s with
    | mk lead body =>
      cases body with
      | nil => exact Insertion.refl scope .code s
      | cons c r =>
        have happ := cutLead_append s
        have hlead := after_lead s
        have hhead := head_cutLead s
        rw [hcut] at happ hlead hhead
        simp only at happ hlead ⊢
        rw [List.append_assoc]
        conv => arg 3; rw [← happ]
        apply (Insertion.refl scope .code lead).append
        rw [hlead]
        exact .put c (hhead c (by simp)) (Insertion.refl scope .code (c :: r))

/-- A selector with the class in front of its body is confined. -/
theorem isScoped_lead_append (hs : ScopeClass scope) (s body : Text) :
    isScoped scope ((cutLead s).1 ++ scope ++ ' ' :: body) = true := by
  obtain ⟨u, hu, hstrip⟩ := stripComments_lead s
  have hslash : '/' ∉ scope ++ [' '] := by
    simp only [List.mem_append, List.mem_singleton, not_or]
    exact ⟨fun hm => (hs.inert _ hm).not_noted (by decide), by decide⟩
  have hclean : stripComments ((cutLead s).1 ++ scope ++ ' ' :: body) =
      u ++ (scope ++ ' ' :: stripComments body) := by
    rw [List.append_assoc, hstrip, List.append_cons, stripComments_append hslash]
    simp
  obtain ⟨v, hv, hend⟩ := exists_eq_trimEnd_append (' ' :: stripComments body)
  have htrim := hs.solid.trimmed.trim_append hs.ne_nil (' ' :: stripComments body)
  rw [isScoped, hclean, trim_blank_append hu, htrim, startsWithClass, after?_append]
  cases hr : trimEnd (' ' :: stripComments body) with
  | nil => rfl
  | cons c r =>
    rw [hr, List.cons_append, List.cons.injEq] at hend
    rw [← hend.1]
    rfl

/-- Confining a selector twice is confining it once. -/
theorem prefixSelector_prefixSelector (hs : ScopeClass scope) (s : Text) :
    prefixSelector scope (prefixSelector scope s) = prefixSelector scope s := by
  by_cases hscoped : isScoped scope s = true
  · have h : prefixSelector scope s = s := by rw [prefixSelector, if_pos hscoped]
    rw [h, h]
  · cases hcut : cutLead s with
    | mk lead body =>
      cases body with
      | nil =>
        have h : prefixSelector scope s = s := by rw [prefixSelector, if_neg hscoped, hcut]
        rw [h, h]
      | cons c r =>
        have h : prefixSelector scope s = lead ++ scope ++ ' ' :: c :: r := by
          rw [prefixSelector, if_neg hscoped, hcut]
        have hdone := isScoped_lead_append hs s (c :: r)
        rw [hcut] at hdone
        rw [h, prefixSelector, if_pos hdone]

/-! ## The whole list -/

/-- A class is not blank. -/
theorem isAllBlank_scope (hs : ScopeClass scope) : isAllBlank scope = false := by
  obtain ⟨r, rfl⟩ := hs.exists_cons
  rfl

/-- A list is confined selector by selector. -/
theorem prefixSelectors_eq (hs : ScopeClass scope) (t : Text) : prefixSelectors scope t =
    [','].intercalate ((splitSelectors t).map (prefixSelector scope)) := by
  rw [prefixSelectors, if_neg (by simp [isAllBlank_scope hs])]

/-- A selector list that is confined is the list with the class put in. -/
theorem insertion_prefixSelectors (hs : ScopeClass scope) (t : Text) :
    Insertion scope .code t (prefixSelectors scope t) := by
  rw [prefixSelectors_eq hs]
  induction t using splitSelectors_induction with
  | one s _ => simpa [List.intercalate] using insertion_prefixSelector scope s
  | cons s r _ hm _ ih =>
    obtain ⟨q, qs, hq⟩ := exists_splitSelectors r
    rw [hq, List.map_cons, intercalate_cons] at ih
    rw [hq, List.map_cons, List.map_cons, intercalate_cons, List.flatMap_cons, List.append_assoc]
    apply (insertion_prefixSelector scope s).append
    apply Insertion.keep
    rw [Mode.next_comma hm]
    exact ih

/-- A confined list falls into the confined selectors. -/
theorem splitSelectors_prefixSelectors (hs : ScopeClass scope) (t : Text) :
    splitSelectors (prefixSelectors scope t) = (splitSelectors t).map (prefixSelector scope) := by
  rw [prefixSelectors_eq hs]
  induction t using splitSelectors_induction with
  | one s hsolid =>
    obtain ⟨hsolid', -⟩ := (insertion_prefixSelector scope s).solid hs hsolid
    rw [List.map_singleton, List.intercalate_singleton, splitSelectors, splitFrom_of_solid hsolid']
  | cons s r hsolid hm hd ih =>
    have hins := insertion_prefixSelector scope s
    obtain ⟨hsolid', hdepth⟩ := hins.solid hs hsolid
    obtain ⟨q, qs, hq⟩ := exists_splitSelectors r
    rw [hq, List.map_cons, intercalate_cons] at ih
    rw [hq, List.map_cons, List.map_cons, intercalate_cons, List.flatMap_cons, List.append_assoc,
      splitSelectors, splitFrom_append hsolid', hins.after_eq hs, hdepth, hd, List.singleton_append,
      splitFrom_comma hm, ih, List.append_nil]

/-- Confining a selector list twice is confining it once. -/
theorem prefixSelectors_prefixSelectors (hs : ScopeClass scope) (t : Text) :
    prefixSelectors scope (prefixSelectors scope t) = prefixSelectors scope t := by
  rw [prefixSelectors_eq hs (prefixSelectors scope t), splitSelectors_prefixSelectors hs,
    List.map_map, prefixSelectors_eq hs t]
  congr 1
  apply List.map_congr_left
  intro s _
  exact prefixSelector_prefixSelector hs s

/-- A list is confined just when each of its selectors is. -/
theorem prefixSelectors_eq_self_iff (hs : ScopeClass scope) {t : Text} :
    prefixSelectors scope t = t ↔ ∀ s ∈ splitSelectors t, prefixSelector scope s = s := by
  constructor
  · intro h
    have hsplit := splitSelectors_prefixSelectors hs t
    rw [h] at hsplit
    exact List.map_inj_left.mp (hsplit.symm.trans (List.map_id _).symm)
  · intro h
    rw [prefixSelectors_eq hs, List.map_congr_left h, List.map_id', intercalate_splitSelectors]

end StyleSnippet.Css
