import StyleSnippet.Document.Banner
import StyleSnippet.Proofs.Text.Occurrence

/-!
# Titles in banners

The title of a banner is brought into a form that fits into a comment on one line, whatever it was
before: it holds no line feed and no end of a comment.
-/

set_option autoImplicit false

namespace StyleSnippet.Banner

open Text

variable {t : Text}

/-! ## The end of a comment taken out -/

/-- The end of a comment is replaced where the text starts with it. -/
theorem replace_of_match {w rest : Text} (h : commentEnd.match? t = some ((), w, rest)) :
    commentEnd.replace "* /" t = "* /".toList ++ commentEnd.replace "* /" rest := by
  simp [Pattern.replace, commentEnd.split_of_match h]

/-- Any other character stays, and the rest is looked at. -/
theorem replace_cons {c : Char} (h : commentEnd.match? (c :: t) = none) :
    commentEnd.replace "* /" (c :: t) = c :: commentEnd.replace "* /" t := by
  rw [Pattern.replace, Pattern.replace, commentEnd.split_cons_of_none h]
  generalize commentEnd.split t = s
  obtain ⟨os, rest⟩ := s
  cases os <;> rfl

/-- An end of a comment is read just where one stands. -/
theorem commentEnd_match? (t : Text) : commentEnd.match? t =
    (Text.after? "*/" t).map fun rest => ((), "*/".toList, rest) := rfl

/-- Once every end of a comment is taken out, none is left. -/
theorem not_infix_replace (t : Text) :
    ¬ "*/".toList <:+: commentEnd.replace "* /" t ∧
      ((commentEnd.replace "* /" t).head? = some '/' → t.head? = some '/') := by
  induction hn : t.length using Nat.strong_induction_on generalizing t with
  | _ n ih =>
    cases t with
    | nil =>
      have hnil : commentEnd.replace "* /" [] = [] := by simp [Pattern.replace, Pattern.split]
      rw [hnil]
      exact ⟨by decide, by simp⟩
    | cons c t =>
      cases hm : commentEnd.match? (c :: t) with
      | some m =>
        obtain ⟨⟨⟩, w, rest⟩ := m
        have hrest := ih rest.length (hn ▸ commentEnd.rest_lt hm) rest rfl
        have hcons : "* /".toList ++ commentEnd.replace "* /" rest =
            ['*'] ++ ' ' :: ('/' :: commentEnd.replace "* /" rest) := rfl
        rw [replace_of_match hm]
        refine ⟨?_, by simp⟩
        rw [hcons, infix_append_cons (by decide)]
        rintro (h | h)
        · exact absurd h (by decide)
        · rcases List.infix_cons_iff.mp h with h | h
          · have hstar := (List.cons_prefix_cons.mp h).1
            exact absurd hstar (by decide)
          · exact hrest.1 h
      | none =>
        have hrest := ih t.length (by rw [← hn]; simp) t rfl
        rw [replace_cons hm]
        refine ⟨?_, by simp⟩
        intro h
        rcases List.infix_cons_iff.mp h with h | h
        · -- an asterisk in front of a solidus would have been taken out
          have hmark : "*/".toList = ['*', '/'] := rfl
          rw [hmark] at h
          obtain ⟨rfl, r, hr⟩ := List.cons_prefix_cons.mp h
          have hhead := hrest.2 (by rw [← hr]; rfl)
          obtain ⟨x, rfl⟩ := List.head?_eq_some_iff.mp hhead
          simp [commentEnd_match?, after?] at hm
        · exact hrest.1 h

/-! ## Plain titles -/

/-- A plain title lies on one line and does not end a comment. -/
theorem plainTitle_fits (title : Text) :
    '\n' ∉ plainTitle title ∧ ¬ "*/".toList <:+: plainTitle title := by
  rw [plainTitle]
  refine ⟨?_, ?_⟩
  · intro hm
    have hi : ['\n'] <:+: " ".toList.intercalate (words (commentEnd.replace "* /" title)) :=
      (List.singleton_infix_iff _ _).mpr hm
    obtain ⟨w, hw, hin⟩ := infix_intercalate (by simp) (by decide) (by decide) hi
    have hb := (infix_of_mem_words hw).2 '\n' (hin.subset (by simp))
    exact absurd hb (by decide)
  · intro hi
    obtain ⟨w, hw, hin⟩ := infix_intercalate (by decide) (by decide) (by decide) hi
    exact (not_infix_replace title).1 (hin.trans (infix_of_mem_words hw).1)

end StyleSnippet.Banner
