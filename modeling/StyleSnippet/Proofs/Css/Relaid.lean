import StyleSnippet.Proofs.Css.Code
import StyleSnippet.Proofs.Css.Selector
import StyleSnippet.Proofs.Text.Relaid

/-!
# White space does not matter to the readers of CSS

Comments, code, at-rule names and selector lists are read of a text in the same way when other
white space stands in it, since the marks that they are read by hold none.
-/

set_option autoImplicit false

namespace StyleSnippet.Css

open Text

variable {scope s t u v : Text} {m : Mode}

/-! ## Comments -/

/-- A complete comment stays one when a text is relaid. -/
theorem comment?_relaid {c rest : Text} (h : Relaid s t) (hc : comment? s = some (c, rest)) :
    ∃ c' rest', comment? t = some (c', rest') ∧ Relaid rest rest' := by
  have hopen : Text.Solid "/*".toList := by decide
  have hclose : Text.Solid "*/".toList := by decide
  obtain ⟨body, rfl, rfl, hend⟩ := comment?_eq_some_iff.mp hc
  obtain ⟨a, rest', rfl, ha, hrest⟩ := h.append_inv hclose (by decide)
  obtain ⟨a', body', rfl, ha', hbody⟩ := ha.append_inv (a := []) hopen (by decide)
  refine ⟨"/*".toList ++ body' ++ "*/".toList, rest', ?_, hrest⟩
  rw [ha'.eq_nil_iff.mp rfl, List.nil_append]
  refine comment?_eq_some_iff.mpr ⟨body', rfl, rfl, ?_⟩
  have happ := hbody.append (Relaid.refl ['*'])
  rwa [← happ.infix_iff hclose (by decide)]

/-- A text that starts with no comment starts with none when it is relaid. -/
theorem comment?_relaid_none (h : Relaid s t) (hc : comment? s = none) : comment? t = none := by
  cases ht : comment? t with
  | none => rfl
  | some p =>
    obtain ⟨c, rest, hs, -⟩ := comment?_relaid h.symm ht
    rw [hc] at hs
    simp at hs

/-- White space holds no other characters. -/
theorem not_mem_of_blank {c : Char} (hc : isBlank c = false) (hu : Blank u) : c ∉ u := by
  intro hm
  rw [hu c hm] at hc
  simp at hc

/-- Without their comments, relaid texts are still relaid. -/
theorem stripComments_relaid (h : Relaid s t) : Relaid (stripComments s) (stripComments t) := by
  induction hn : s.length using Nat.strong_induction_on generalizing s t with
  | _ n ih =>
    cases h with
    | nil => exact Relaid.refl _
    | @ink c s t hc h =>
      cases hcom : comment? (c :: s) with
      | none =>
        have hcom' := comment?_relaid_none (.ink c hc h) hcom
        rw [stripComments_cons hcom, stripComments_cons hcom']
        exact .ink c hc (ih s.length (by simp [← hn]) h rfl)
      | some p =>
        obtain ⟨comment, rest⟩ := p
        obtain ⟨comment', rest', hcom', hrest⟩ := comment?_relaid (.ink c hc h) hcom
        rw [stripComments_of_comment hcom, stripComments_of_comment hcom']
        exact ih rest.length (hn ▸ comment?_length hcom) hrest rfl
    | @gap u v s t hu hv hu' hv' hfeed h =>
      rw [stripComments_append (not_mem_of_blank (by decide) hu),
        stripComments_append (not_mem_of_blank (by decide) hv)]
      have hlen := List.length_pos_iff.mpr hu'
      exact .gap hu hv hu' hv' hfeed (ih s.length (by rw [← hn, List.length_append]; omega) h rfl)

/-! ## Modes -/

namespace Mode

/-- The mode that white space leaves. -/
def settle : Mode → Mode
  | code | slash => code
  | comment | star => comment
  | quoted q | escaped q => quoted q

/-- A mode whose string literal, if it is in one, no white space ends. -/
def Proper : Mode → Prop
  | quoted q | escaped q => isBlank q = false
  | _ => True

/-- No character opens a string literal that white space would end. -/
theorem proper_next (h : m.Proper) (c : Char) : (m.next c).Proper := by
  have hcode : (afterCode c).Proper := by
    rw [afterCode]
    split
    · trivial
    · split
      · next hq =>
        rcases hq with rfl | rfl
        · exact (by decide : isBlank '"' = false)
        · exact (by decide : isBlank '\'' = false)
      · trivial
  cases m with
  | code => exact hcode
  | slash =>
    rw [next]
    split
    · trivial
    · exact hcode
  | comment =>
    rw [next]
    split <;> trivial
  | star =>
    rw [next]
    split
    · trivial
    · split <;> trivial
  | quoted q =>
    rw [next]
    split
    · exact h
    · split
      · trivial
      · exact h
  | escaped q => exact h

/-- Nor does white space itself. -/
theorem proper_settle (h : m.Proper) : m.settle.Proper := by
  cases m <;> exact h

/-- White space leaves code, a comment or a string literal as it was before its last mark. -/
theorem next_blank {c : Char} (h : m.Proper) (hc : isBlank c = true) : m.next c = m.settle := by
  have hne {d : Char} (hd : isBlank d = false) : c ≠ d := by
    rintro rfl
    rw [hc] at hd
    simp at hd
  have hcode : afterCode c = code := by
    rw [afterCode, if_neg (hne (by decide)), if_neg]
    exact not_or.mpr ⟨hne (by decide), hne (by decide)⟩
  cases m with
  | code => exact hcode
  | slash =>
    rw [next, if_neg (hne (by decide))]
    exact hcode
  | comment => rw [next, if_neg (hne (by decide)), settle]
  | star => rw [next, if_neg (hne (by decide)), if_neg (hne (by decide)), settle]
  | quoted q => rw [next, if_neg (hne (by decide)), if_neg (hne h), settle]
  | escaped q => rfl

/-- There is nothing left to settle. -/
theorem settle_settle (m : Mode) : m.settle.settle = m.settle := by
  cases m <;> rfl

/-- Behind white space, more of it changes nothing. -/
theorem after_settle (h : m.Proper) (hu : Blank u) : m.settle.after u = m.settle := by
  induction u with
  | nil => rfl
  | cons c u ih =>
    rw [blank_cons] at hu
    rw [after_cons, next_blank (proper_settle h) hu.1, settle_settle, ih hu.2]

/-- White space leaves the same mode, however much there is of it. -/
theorem after_blank (h : m.Proper) (hu : Blank u) (hne : u ≠ []) : m.after u = m.settle := by
  obtain ⟨c, u, rfl, hc, hu⟩ := hu.exists_cons hne
  rw [after_cons, next_blank h hc, after_settle h hu]

/-- White space leaves code as code. -/
theorem after_code_blank (hu : Blank u) : after code u = code := by
  by_cases hne : u = []
  · rw [hne, after_nil]
  · exact after_blank (m := code) trivial hu hne

/-- White space in code is code. -/
theorem givenBy_code_blank (hu : Blank u) : givenBy code u = u := by
  induction u with
  | nil => rfl
  | cons c u ih =>
    rw [blank_cons] at hu
    have hgiven : given code c = [c] := by
      rw [given, if_neg]
      rintro (rfl | rfl | rfl) <;> exact absurd hu.1 (by decide)
    rw [givenBy, next_blank (m := .code) trivial hu.1, hgiven, settle, ih hu.2]
    rfl

/-- White space behind a solidus shows that the solidus is code. -/
theorem givenBy_slash_blank (hu : Blank u) (hne : u ≠ []) : givenBy slash u = '/' :: u := by
  cases u with
  | nil => exact absurd rfl hne
  | cons c u =>
    rw [blank_cons] at hu
    have hgiven : given slash c = ['/', c] := by
      rw [given, if_neg, if_neg]
      · rintro (rfl | rfl | rfl) <;> exact absurd hu.1 (by decide)
      · rintro rfl
        exact absurd hu.1 (by decide)
    rw [givenBy, next_blank (m := .slash) trivial hu.1, hgiven, settle, givenBy_code_blank hu.2]
    rfl

/-- White space in a comment or a string is no code. -/
theorem givenBy_blank_eq_nil (h : m.Proper) (hmode : m.isCode = false) (hu : Blank u) :
    givenBy m u = [] := by
  induction u generalizing m with
  | nil => rfl
  | cons c u ih =>
    rw [blank_cons] at hu
    have hsettled : m.settle.isCode = false := by
      cases m <;> first | rfl | simp [isCode] at hmode
    rw [givenBy, next_blank h hu.1, given_eq_nil hmode, ih (proper_settle h) hsettled hu.2]
    rfl

/-- White space is code or it is not, however much there is of it. -/
theorem givenBy_blank (h : m.Proper) (hu : Blank u) (hv : Blank v) (hu' : u ≠ []) (hv' : v ≠ [])
    (hfeed : '\n' ∈ u ↔ '\n' ∈ v) : Relaid (m.givenBy u) (m.givenBy v) := by
  have hnone (hmode : m.isCode = false) : Relaid (m.givenBy u) (m.givenBy v) := by
    rw [givenBy_blank_eq_nil h hmode hu, givenBy_blank_eq_nil h hmode hv]
    exact .nil
  cases m with
  | code =>
    rw [givenBy_code_blank hu, givenBy_code_blank hv]
    exact Relaid.of_blank hu hv hu' hv' hfeed
  | slash =>
    rw [givenBy_slash_blank hu hu', givenBy_slash_blank hv hv']
    exact .ink '/' (by decide) (Relaid.of_blank hu hv hu' hv' hfeed)
  | comment => exact hnone rfl
  | star => exact hnone rfl
  | quoted q => exact hnone rfl
  | escaped q => exact hnone rfl

/-- The code of relaid texts is relaid. -/
theorem codeFrom_relaid (hm : m.Proper) (h : Relaid s t) :
    Relaid (m.codeFrom s) (m.codeFrom t) := by
  induction h generalizing m with
  | nil => exact Relaid.refl _
  | ink c _ _ ih =>
    rw [codeFrom_cons, codeFrom_cons]
    exact (Relaid.refl _).append (ih (proper_next hm c))
  | gap hu hv hu' hv' hfeed _ ih =>
    rw [codeFrom_append, codeFrom_append, after_blank hm hu hu', after_blank hm hv hv']
    exact (givenBy_blank hm hu hv hu' hv' hfeed).append (ih (proper_settle hm))

end Mode

/-! ## At-rule names -/

/-- White space is no part of a name. -/
theorem isNameChar_of_blank {c : Char} (h : isBlank c = true) : isNameChar c = false := by
  simpa using forall_blank (p := fun c => !isNameChar c) (by decide) h

/-- White space in front of a text holds no at-sign. -/
theorem firstAtName?_blank_append (hu : Blank u) (t : Text) :
    firstAtName? (u ++ t) = firstAtName? t :=
  firstAtName?_append_of_not_mem (not_mem_of_blank (by decide) hu) t

/-- A name follows an at-sign of a relaid text just if it did before. -/
theorem firstAtName?_relaid (h : Relaid s t) : firstAtName? s = firstAtName? t := by
  induction h with
  | nil => rfl
  | @ink c s t _ h ih =>
    have hname := h.takeWhile_eq fun c => isNameChar_of_blank (c := c)
    have hhead : s.head?.any isNameChar = t.head?.any isNameChar := by
      have hnot := h.head_class (p := fun c => !isNameChar c)
        fun c hc => by simp [isNameChar_of_blank hc]
      have hall (o : Option Char) : o.any isNameChar = !o.all fun c => !isNameChar c := by
        cases o <;> simp
      rw [hall, hall, hnot]
    rw [firstAtName?, firstAtName?, hname, hhead, ih]
  | gap hu hv _ _ _ _ ih =>
    rw [firstAtName?_blank_append hu, firstAtName?_blank_append hv, ih]

/-- White space in front of a text does not matter to where a name follows an at-sign behind its
last opening brace. -/
theorem firstAtName?_behindBrace_blank_append (hu : Blank u) (t : Text) :
    firstAtName? (behindBrace (u ++ t)) = firstAtName? (behindBrace t) := by
  have hall := forall_ne_brace (not_mem_of_blank (by decide) (blank_reverse.mpr hu))
  rw [behindBrace, behindBrace, List.reverse_append, List.takeWhile_append]
  split
  · next hlength =>
    -- There is no brace at all, and the white space stays in front.
    have hself : t.reverse.takeWhile (· ≠ '{') = t.reverse :=
      (List.takeWhile_prefix _).eq_of_length hlength
    rw [List.takeWhile_eq_self_iff.mpr hall, hself, List.reverse_append, List.reverse_reverse,
      List.reverse_reverse]
    exact firstAtName?_blank_append hu t
  · rfl

/-- Relaid texts are relaid up to the first opening brace. -/
theorem relaid_takeWhile (h : Relaid s t) :
    Relaid (s.takeWhile (· ≠ '{')) (t.takeWhile (· ≠ '{')) := by
  induction h with
  | nil => exact .nil
  | ink c hc _ ih =>
    rw [List.takeWhile_cons, List.takeWhile_cons]
    split
    · exact .ink c hc ih
    · exact .nil
  | gap hu hv hu' hv' hfeed _ ih =>
    rw [List.takeWhile_append_of_pos (forall_ne_brace (not_mem_of_blank (by decide) hu)),
      List.takeWhile_append_of_pos (forall_ne_brace (not_mem_of_blank (by decide) hv))]
    exact .gap hu hv hu' hv' hfeed ih

/-- Relaid texts are relaid behind the last opening brace. -/
theorem relaid_behindBrace (h : Relaid s t) : Relaid (behindBrace s) (behindBrace t) :=
  (relaid_takeWhile h.reverse).reverse

/-! ## Selector lists -/

/-- White space splits no selector list, and opens no bracket. -/
theorem solid_blank (hm : m.Proper) (d : Nat) (hu : Blank u) :
    Solid m d u ∧ depthAfter m d u = d := by
  induction u generalizing m with
  | nil => exact ⟨trivial, rfl⟩
  | cons c u ih =>
    rw [blank_cons] at hu
    have hne {e : Char} (he : isBlank e = false) : c ≠ e := by
      rintro rfl
      rw [hu.1] at he
      simp at he
    have hdepth : bracketDepth d c = d := by
      rw [bracketDepth, if_neg, if_neg]
      · exact not_or.mpr ⟨hne (by decide), hne (by decide)⟩
      · exact not_or.mpr ⟨hne (by decide), hne (by decide)⟩
    rw [Solid, depthAfter, hdepth, ite_self]
    obtain ⟨hsolid, hd⟩ := ih (Mode.proper_next hm c) hu.2
    exact ⟨⟨fun h => hne (by decide) h.2.1, hsolid⟩, hd⟩

/-- The parts of relaid texts are relaid. -/
theorem splitFrom_relaid (hm : m.Proper) (d : Nat) (h : Relaid s t) :
    Relaid (splitFrom m d s).1 (splitFrom m d t).1 ∧
      List.Forall₂ Relaid (splitFrom m d s).2 (splitFrom m d t).2 := by
  induction h generalizing m d with
  | nil => exact ⟨.nil, .nil⟩
  | ink c hc _ ih =>
    obtain ⟨hfirst, hrest⟩ := ih (Mode.proper_next hm c) (if m.isCode then bracketDepth d c else d)
    rw [splitFrom, splitFrom]
    split
    · exact ⟨.nil, .cons hfirst hrest⟩
    · exact ⟨.ink c hc hfirst, hrest⟩
  | gap hu hv hu' hv' hfeed _ ih =>
    obtain ⟨hsolid, hd⟩ := solid_blank hm d hu
    obtain ⟨hsolid', hd'⟩ := solid_blank hm d hv
    rw [splitFrom_append hsolid, splitFrom_append hsolid', hd, hd', Mode.after_blank hm hu hu',
      Mode.after_blank hm hv hv']
    obtain ⟨hfirst, hrest⟩ := ih (Mode.proper_settle hm) d
    exact ⟨.gap hu hv hu' hv' hfeed hfirst, hrest⟩

/-- A text starts with the class if it starts with its characters and they end there. -/
theorem startsWithClass_eq (scope t : Text) :
    startsWithClass scope t = (after? scope t).any fun r => r.head?.all endsClass := by
  rw [startsWithClass]
  rcases after? scope t with - | - | - <;> rfl

/-- Whether a text starts with the class does not depend on its white space. -/
theorem startsWithClass_relaid (hs : ScopeClass scope) (h : Relaid s t) :
    startsWithClass scope s = startsWithClass scope t := by
  have hscope := hs.solid
  have hclass (c : Char) (hc : isBlank c = true) : endsClass c = true := by simp [endsClass, hc]
  rw [startsWithClass_eq, startsWithClass_eq]
  cases hr : after? scope s with
  | none =>
    cases hr' : after? scope t with
    | none => rfl
    | some r' =>
      obtain ⟨r, hr'', -⟩ := h.symm.after? hscope hr'
      rw [hr] at hr''
      simp at hr''
  | some r =>
    obtain ⟨r', hr', hrest⟩ := h.after? hscope hr
    rw [hr', Option.any_some, Option.any_some, hrest.head_class hclass]

/-- Whether confining changes a selector is a matter of its text without comments. -/
theorem prefixSelector_eq_self_iff : prefixSelector scope s = s ↔
    startsWithClass scope (trim (stripComments s)) = true ∨ trim (stripComments s) = [] := by
  by_cases hscoped : isScoped scope s = true
  · have hstarts : startsWithClass scope (trim (stripComments s)) = true := hscoped
    simp [prefixSelector, hscoped, hstarts]
  · have hstarts : startsWithClass scope (trim (stripComments s)) = false := by
      simpa [isScoped] using hscoped
    have happ := cutLead_append s
    obtain ⟨u, hu, hstrip⟩ := stripComments_lead s
    have hclean := hstrip (cutLead s).2
    rw [happ] at hclean
    have hhead := head_cutLead s
    rw [prefixSelector, if_neg hscoped, hstarts, hclean, trim_blank_append hu]
    cases hbody : (cutLead s).2 with
    | nil =>
      have hsplit : cutLead s = ((cutLead s).1, []) := by rw [← hbody]
      rw [hsplit]
      simp [stripComments_nil]
    | cons c r =>
      have hcom : comment? (c :: r) = none := hbody ▸ comment?_cutLead s
      have hc : isBlank c = false := hhead c (by simp [hbody])
      have hsplit : cutLead s = ((cutLead s).1, c :: r) := by rw [← hbody]
      have hlonger : (cutLead s).1 ++ (scope ++ ' ' :: c :: r) ≠ s := by
        intro h
        have hlen := congrArg List.length (h.trans happ.symm)
        simp only [hbody, List.length_append, List.length_cons] at hlen
        omega
      have hink : trim (c :: stripComments r) ≠ [] := by
        rw [Ne, trim_eq_nil_iff, blank_cons, hc]
        simp
      rw [hsplit]
      simp [stripComments_cons hcom, hlonger, hink]

end StyleSnippet.Css
