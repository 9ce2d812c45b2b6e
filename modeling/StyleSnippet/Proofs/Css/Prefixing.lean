import Mathlib.Data.List.Forall2
import StyleSnippet.Proofs.Css.Confinement
import StyleSnippet.Proofs.Css.Places

/-!
# What becomes of each selector of a list

A selector list that is confined has as many selectors as before, and each of them is told by the
selector in its place: white space and comments are left alone, and so is a selector that starts
with the class. Any other one gets the class in front of its first character. Which of these it is
does not change by confining the list, so doing it again changes nothing.
-/

set_option autoImplicit false

namespace StyleSnippet.Css

open Text

variable {scope s : Text}

/-- How a selector is written when it is confined to a class. -/
structure Prefixed (scope s s' : Text) : Prop where
  /-- White space and complete comments stay as they are. -/
  of_lead : Lead s → s' = s
  /-- So does a selector that starts with the class as a whole token. -/
  of_confined : Confined scope s → s' = s
  /-- Any other selector gets the class and a space in front of its first character that is neither
  white space nor in a complete comment. -/
  otherwise : ¬ Lead s → ¬ Confined scope s → ∃ lead body, s = lead ++ body ∧ Lead lead ∧
    Bare body ∧ s' = lead ++ scope ++ ' ' :: body

/-- A selector that is confined already stays as it is. -/
theorem prefixSelector_of_confined (h : Confined scope s) : prefixSelector scope s = s := by
  rw [prefixSelector, if_pos (isScoped_iff.mpr h)]

/-- A selector that is more than white space and comments gets the class behind its lead, unless it
has the class. -/
theorem prefixSelector_of_not_confined (h : ¬ Confined scope s) (hbody : (cutLead s).2 ≠ []) :
    prefixSelector scope s = (cutLead s).1 ++ scope ++ ' ' :: (cutLead s).2 := by
  rw [prefixSelector, if_neg (mt isScoped_iff.mp h)]
  split
  · next hcut => exact absurd (congrArg Prod.snd hcut) hbody
  · next hcut => rw [hcut]

/-- What becomes of a selector is told by what it is. -/
theorem prefixed_prefixSelector (scope s : Text) : Prefixed scope s (prefixSelector scope s) := by
  refine ⟨prefixSelector_of_lead, prefixSelector_of_confined, ?_⟩
  intro hlead hconf
  have hbody : (cutLead s).2 ≠ [] := mt cutLead_snd_eq_nil_iff.mp hlead
  exact ⟨(cutLead s).1, (cutLead s).2, (cutLead_append s).symm, lead_cutLead s, bare_cutLead hbody,
    prefixSelector_of_not_confined hconf hbody⟩

/-- A list that is confined falls into as many selectors as before, each of them the selector in its
place, confined. -/
theorem forall₂_prefixed (hs : ScopeClass scope) (t : Text) :
    List.Forall₂ (Prefixed scope) (splitSelectors t)
      (splitSelectors (prefixSelectors scope t)) := by
  rw [splitSelectors_prefixSelectors hs, List.forall₂_map_right_iff]
  exact List.forall₂_same.mpr fun s _ => prefixed_prefixSelector scope s

/-- Confining a list treats each of its selectors once: the confined list falls into the same
selectors, each with the class put in where it is to be, and confining it again changes nothing. -/
theorem prefixed_prefixSelectors (hs : ScopeClass scope) (t : Text) :
    List.Forall₂ (Prefixed scope) (splitSelectors t) (splitSelectors (prefixSelectors scope t)) ∧
      prefixSelectors scope (prefixSelectors scope t) = prefixSelectors scope t :=
  ⟨forall₂_prefixed hs t, prefixSelectors_prefixSelectors hs t⟩

/-- Selectors with the class behind a comment, with a longer class, and with a comma in brackets; a
comment with a comma, nothing at all, and a string literal that does not end. -/
def mixedList : Text := "/*a*/.ns>b,.ns-x,:is(c,d) e,/*,*/ ,,[f='g,h"

/-- That list, confined once and once more. -/
theorem prefixed_prefixSelectors_mixedList : ScopeClass ".ns" ∧
    List.Forall₂ (Prefixed ".ns") (splitSelectors mixedList)
      (splitSelectors (prefixSelectors ".ns" mixedList)) ∧
    prefixSelectors ".ns" mixedList =
      "/*a*/.ns>b,.ns .ns-x,.ns :is(c,d) e,/*,*/ ,,.ns [f='g,h".toList ∧
    prefixSelectors ".ns" (prefixSelectors ".ns" mixedList) = prefixSelectors ".ns" mixedList := by
  have hs : ScopeClass ".ns" := by decide
  obtain ⟨hparts, hagain⟩ := prefixed_prefixSelectors hs mixedList
  exact ⟨hs, hparts, by decide +kernel, hagain⟩

end StyleSnippet.Css
