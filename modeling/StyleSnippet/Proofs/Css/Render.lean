import Mathlib.Data.List.Forall2
import StyleSnippet.Proofs.Css.Layout
import StyleSnippet.Proofs.Css.Relaid
import StyleSnippet.Proofs.Css.Scope

/-!
# Confining and indenting

The CSS of a setting is confined to a class and then indented. Doing so again changes nothing:
indenting puts other white space in the place of white space and takes it off the two ends, so
what was confined before still is.
-/

set_option autoImplicit false

namespace StyleSnippet.Css

open Text

variable {scope s t u v : Text} {m : Mode} {stack : ContextStack}

/-! ## Text that is held back -/

/-- The texts are relaid, white space in front of them aside. -/
def Alike (s t : Text) : Prop :=
  ∃ u v s' t', Blank u ∧ Blank v ∧ s = u ++ s' ∧ t = v ++ t' ∧ Relaid s' t'

namespace Alike

/-- Texts that are alike stay so with relaid texts behind them. -/
theorem append (h : Alike s t) {s' t' : Text} (h' : Relaid s' t') : Alike (s ++ s') (t ++ t') := by
  obtain ⟨u, v, a, b, hu, hv, rfl, rfl, hab⟩ := h
  exact ⟨u, v, a ++ s', b ++ t', hu, hv, by simp, by simp, hab.append h'⟩

/-- Any white space is like any other. -/
theorem of_blank (hu : Blank u) (hv : Blank v) : Alike u v :=
  ⟨u, v, [], [], hu, hv, by simp, by simp, .nil⟩

/-- Relaid texts are alike. -/
theorem of_relaid (h : Relaid s t) : Alike s t := ⟨[], [], s, t, blank_nil, blank_nil, rfl, rfl, h⟩

/-- White space in front of a text is code. -/
theorem codeFrom_blank_append (hu : Blank u) (t : Text) :
    Mode.codeFrom .code (u ++ t) = u ++ Mode.codeFrom .code t := by
  induction u with
  | nil => rfl
  | cons c u ih =>
    rw [blank_cons] at hu
    have hgiven : Mode.given .code c = [c] := by
      rw [Mode.given, if_neg]
      rintro (rfl | rfl | rfl) <;> exact absurd hu.1 (by decide)
    rw [List.cons_append, Mode.codeFrom_cons, Mode.next_blank (m := .code) trivial hu.1, hgiven]
    exact congrArg (c :: ·) (ih hu.2)

/-- Preludes that are alike write the same at-rule. -/
theorem atRule?_eq (h : Alike s t) : atRule? s = atRule? t := by
  obtain ⟨u, v, a, b, hu, hv, rfl, rfl, hab⟩ := h
  have hcode := relaid_behindBrace (Mode.codeFrom_relaid (m := .code) trivial hab)
  rw [atRule?, atRule?, codeOnly_eq, codeOnly_eq, codeFrom_blank_append hu,
    codeFrom_blank_append hv, firstAtName?_behindBrace_blank_append hu,
    firstAtName?_behindBrace_blank_append hv, firstAtName?_relaid hcode]

/-- The selectors of the two lists are alike. -/
theorem splitSelectors (h : Alike s t) :
    List.Forall₂ Alike (splitSelectors s) (splitSelectors t) := by
  obtain ⟨u, v, a, b, hu, hv, rfl, rfl, hab⟩ := h
  obtain ⟨hsolid, hd⟩ := solid_blank (m := .code) trivial 0 hu
  obtain ⟨hsolid', hd'⟩ := solid_blank (m := .code) trivial 0 hv
  obtain ⟨hfirst, hrest⟩ := splitFrom_relaid (m := .code) trivial 0 hab
  rw [Css.splitSelectors, Css.splitSelectors, splitFrom_append hsolid, splitFrom_append hsolid',
    hd, hd', Mode.after_code_blank hu, Mode.after_code_blank hv]
  exact .cons ((of_blank hu hv).append hfirst) (hrest.imp fun _ _ => of_relaid)

/-- A selector that confining leaves alone is left alone when it is relaid. -/
theorem prefixSelector_eq_self (hs : ScopeClass scope) (h : Alike s t)
    (hself : prefixSelector scope s = s) : prefixSelector scope t = t := by
  obtain ⟨u, v, a, b, hu, hv, rfl, rfl, hab⟩ := h
  rw [prefixSelector_eq_self_iff] at hself ⊢
  rw [stripComments_append (not_mem_of_blank (by decide) hu), trim_blank_append hu] at hself
  rw [stripComments_append (not_mem_of_blank (by decide) hv), trim_blank_append hv]
  have htrim := (stripComments_relaid hab).trim
  rwa [← startsWithClass_relaid hs htrim, ← htrim.eq_nil_iff]

end Alike

/-! ## Stretches of relaid text -/

/-- The stretches end at the same boundary, and are told alike. -/
structure Stretch.Alike (p q : Stretch) : Prop where
  text : Css.Alike p.text q.text
  boundary : p.boundary = q.boundary
  confined : p.confined = q.confined

/-- A stretch that is confined stays so when it is relaid. -/
theorem Stretch.Alike.rewritten {p q : Stretch} (hs : ScopeClass scope) (h : p.Alike q)
    (hself : p.rewritten scope = p) : q.rewritten scope = q := by
  by_cases hq : q.confined = true
  · have hp : p.confined = true := h.confined.trans hq
    have hlist : prefixSelectors scope p.text = p.text := by
      simpa [Stretch.rewritten, hp] using congrArg Stretch.text hself
    rw [prefixSelectors_eq_self_iff hs] at hlist
    have hlist' : prefixSelectors scope q.text = q.text := by
      rw [prefixSelectors_eq_self_iff hs]
      intro t ht
      obtain ⟨i, hi, rfl⟩ := List.getElem_of_mem ht
      have hparts := h.text.splitSelectors
      have hlen := hparts.length_eq
      have hpart := hparts.get (i := i) (by omega) hi
      exact hpart.prefixSelector_eq_self hs (hlist _ (List.getElem_mem _))
    simp [Stretch.rewritten, hlist']
  · rw [Stretch.rewritten, if_neg hq]

/-- White space holds no boundary. -/
theorem quiet_blank (hu : Blank u) (stack : ContextStack) (m : Mode) : Quiet stack m u := by
  induction u generalizing m with
  | nil => trivial
  | cons c u ih =>
    rw [blank_cons] at hu
    have hne {e : Char} (he : isBlank e = false) : c ≠ e := by
      rintro rfl
      rw [hu.1] at he
      simp at he
    have h1 : c ≠ '{' := hne (by decide)
    have h2 : c ≠ '}' := hne (by decide)
    have h3 : c ≠ ';' := hne (by decide)
    exact ⟨by simp [isBoundary, h1, h2, h3], ih hu.2 _⟩

/-- Relaid text is cut at the same boundaries. -/
theorem stretches_relaid (hm : m.Proper) (stack : ContextStack) {held held' : Text}
    (hheld : Alike held held') (h : Relaid s t) :
    List.Forall₂ Stretch.Alike (stretches m stack held s).1 (stretches m stack held' t).1 := by
  induction h generalizing m stack held held' with
  | nil => exact .nil
  | ink c hc _ ih =>
    have hstack : stackAfter stack held c = stackAfter stack held' c := by
      rw [stackAfter, stackAfter, hheld.atRule?_eq]
    have hconf : isConfined stack held c = isConfined stack held' c := by
      rw [isConfined, isConfined, hheld.atRule?_eq]
    rw [stretches, stretches]
    split
    · rw [← hstack]
      exact .cons ⟨hheld, rfl, hconf⟩ (ih (Mode.proper_next hm c) _ (.of_relaid .nil))
    · exact ih (Mode.proper_next hm c) stack (hheld.append (Relaid.refl [c]))
  | gap hu hv hu' hv' hfeed _ ih =>
    rw [stretches_append (quiet_blank hu stack m), stretches_append (quiet_blank hv stack m),
      Mode.after_blank hm hu hu', Mode.after_blank hm hv hv']
    exact ih (Mode.proper_settle hm) stack (hheld.append (.of_blank hu hv hu' hv' hfeed))

/-- White space at the end of a text ends no stretch. -/
theorem stretches_append_blank (hu : Blank u) (m : Mode) (stack : ContextStack) (held t : Text) :
    (stretches m stack held (t ++ u)).1 = (stretches m stack held t).1 := by
  induction t generalizing m stack held with
  | nil =>
    have h := stretches_append (quiet_blank hu stack m) held []
    rw [List.append_nil] at h
    rw [List.nil_append, h]
    rfl
  | cons c t ih =>
    rw [List.cons_append, stretches, stretches]
    split
    · exact congrArg (_ :: ·) (ih _ _ _)
    · exact ih _ _ _

/-! ## The indented text is relaid -/

/-- White space in front of lines behind line feeds goes into the first gap, or to the end of the
text if there are no lines. -/
theorem relaid_blank_append {b w y : Text} {ls : List Text} (hb : Blank b) (hw : Blank w)
    (h : Relaid y (ls.flatMap (['\n'] ++ ·))) :
    ∃ y' w', Blank w' ∧ b ++ (y ++ w) = y' ++ w' ∧ Relaid y' (ls.flatMap (['\n'] ++ ·)) := by
  cases ls with
  | nil =>
    have hnil : y = [] := h.eq_nil_iff.mpr rfl
    exact ⟨[], b ++ w, blank_append.mpr ⟨hb, hw⟩, by simp [hnil], .nil⟩
  | cons l ls =>
    exact ⟨b ++ y, w, hw, by simp, h.absorb hb⟩

/-- Lines behind line feeds, indented: the text is relaid, white space at its end aside. -/
theorem relaid_indentLines (d : Nat) (ic : Bool) (ps : List Text) :
    ∃ y w, Blank w ∧ ps.flatMap (['\n'] ++ ·) = y ++ w ∧
      Relaid y ((indentLines d ic ((ps.map trim).filter fun line => !line.isEmpty)).flatMap
        (['\n'] ++ ·)) := by
  induction ps generalizing d ic with
  | nil => exact ⟨[], [], blank_nil, rfl, .nil⟩
  | cons p ps ih =>
    obtain ⟨u, v, hu, hv, hp⟩ := exists_eq_append_trim p
    by_cases hnil : trim p = []
    · -- a blank line
      obtain ⟨y, w, hw, hps, hy⟩ := ih d ic
      have hb : Blank (['\n'] ++ p) := blank_append.mpr ⟨blank_feed, trim_eq_nil_iff.mp hnil⟩
      rw [List.map_cons, List.filter_cons_of_neg (by simp [hnil]), List.flatMap_cons, hps]
      exact relaid_blank_append hb hw hy
    · -- a line behind other indentation
      rw [List.map_cons, List.filter_cons_of_pos (by simp [hnil]), indentLines, List.flatMap_cons,
        List.flatMap_cons, indent]
      obtain ⟨y, w, hw, hps, hy⟩ := ih (d + (BraceCount.ofText ic (trim p)).opens -
        (BraceCount.ofText ic (trim p)).closes) (BraceCount.ofText ic (trim p)).mode.isComment
      obtain ⟨y', w', hw', hsplit, hy'⟩ := relaid_blank_append hv hw hy
      refine ⟨['\n'] ++ u ++ (trim p ++ y'), w', hw', ?_, ?_⟩
      · rw [hps]
        conv_lhs => rw [hp]
        simp only [List.append_assoc] at hsplit ⊢
        rw [hsplit]
      · have hlead :
            Blank (['\n'] ++ (List.replicate (lineLevel d ic (trim p)) indentUnit).flatten) :=
          blank_append.mpr ⟨blank_feed, blank_indentation _⟩
        have hgap :=
          Relaid.gap (blank_append.mpr ⟨blank_feed, hu⟩) hlead (by simp) (by simp) (by simp)
            ((Relaid.refl (trim p)).append hy')
        simpa using hgap

/-- A stylesheet behind a line feed: indenting it relays it, white space at its end aside. -/
theorem relaid_formatBlock {t : Text} (ht : ¬ Blank t) :
    ∃ y w, Blank w ∧ '\n' :: t = y ++ w ∧ Relaid y ('\n' :: formatBlock t) := by
  have hfeeds (ts : List Text) (hne : ts ≠ []) :
      ts.flatMap (['\n'] ++ ·) = '\n' :: List.intercalate ['\n'] ts := by
    cases ts with
    | nil => exact absurd rfl hne
    | cons s ts =>
      rw [intercalate_cons]
      rfl
  obtain ⟨y, w, hw, hps, hy⟩ := relaid_indentLines 0 false (pieces t)
  rw [← inkedLines_eq] at hy
  refine ⟨y, w, hw, ?_, ?_⟩
  · rw [← hps, hfeeds _ (pieces_ne_nil t), intercalate_pieces]
  · rwa [hfeeds _ (indentLines_ne_nil (inkedLines_eq_nil_iff.not.mpr ht))] at hy

/-! ## Rendering twice -/

/-- What is confined of text behind alike text stays confined when the text is relaid. -/
theorem rewritten_of_relaid (hs : ScopeClass scope) {held held' : Text} (hheld : Alike held held')
    (h : Relaid s t) (hself : ∀ p ∈ (stretches .code {} held s).1, p.rewritten scope = p) :
    ∀ q ∈ (stretches .code {} held' t).1, q.rewritten scope = q := by
  intro q hq
  obtain ⟨i, hi, rfl⟩ := List.getElem_of_mem hq
  have hall := stretches_relaid (m := .code) trivial {} hheld h
  have hlen := hall.length_eq
  have hone := hall.get (i := i) (by omega) hi
  exact Stretch.Alike.rewritten hs hone (hself _ (List.getElem_mem _))

/-- Indenting a confined stylesheet leaves it confined. -/
theorem scopeCss_formatBlock_scopeCss (hs : ScopeClass scope) (css : Text) :
    scopeCss scope (formatBlock (scopeCss scope css)) = formatBlock (scopeCss scope css) := by
  set y := scopeCss scope css with hy
  have hdone : ∀ p ∈ (stretches .code {} [] y).1, p.rewritten scope = p :=
    fun p => rewritten_of_mem_scopeCss hs
  by_cases hblank : Blank y
  · rw [formatBlock_eq_nil_iff.mpr hblank]
    rfl
  · have hstart (t : Text) : stretches .code {} [] ('\n' :: t) = stretches .code {} ['\n'] t :=
      stretches_append (quiet_blank blank_feed {} .code) [] t
    obtain ⟨y', w, hw, hsplit, hrelaid⟩ := relaid_formatBlock hblank
    apply scopeCss_eq_self
    have hbehind : ∀ p ∈ (stretches .code {} [] ('\n' :: y)).1, p.rewritten scope = p := by
      rw [hstart]
      exact rewritten_of_relaid hs (.of_blank blank_nil blank_feed) (Relaid.refl y) hdone
    rw [hsplit, stretches_append_blank hw] at hbehind
    have hindented := rewritten_of_relaid hs (.of_blank blank_nil blank_nil) hrelaid hbehind
    rw [hstart] at hindented
    exact rewritten_of_relaid hs (.of_blank blank_feed blank_nil) (Relaid.refl _) hindented

/-- The CSS of a setting, confined and indented. -/
def render (scope css : Text) : Text := formatBlock (scopeCss scope css)

/-- Confining and indenting again changes nothing. -/
theorem render_render (hs : ScopeClass scope) (css : Text) :
    render scope (render scope css) = render scope css := by
  rw [render, render, scopeCss_formatBlock_scopeCss hs, formatBlock_formatBlock]

/-- Rendering is stable: what is rendered is confined already, and it is rendered already. -/
theorem render_stable (hs : ScopeClass scope) (css : Text) :
    scopeCss scope (render scope css) = render scope css ∧
      render scope (render scope css) = render scope css :=
  ⟨scopeCss_formatBlock_scopeCss hs css, render_render hs css⟩

/-- Blank lines in a selector list, in a comment with a brace and behind a backslash in a string
with a brace. One of the selectors is confined already. -/
def ragged : Text :=
  "  a ,\n\n .x-1 b\x7b\n  /* \x7b\n\n */ c:'d\\\n\n \x7d e' ;\n\x7d\n@media f \x7b g\x7b\x7d\n\x7d "

/-- The stylesheet is changed by confining and by indenting, and neither changes it again. -/
theorem render_stable_ragged : ScopeClass ".x-1" ∧ scopeCss ".x-1" ragged ≠ ragged ∧
    render ".x-1" ragged ≠ scopeCss ".x-1" ragged ∧
    scopeCss ".x-1" (render ".x-1" ragged) = render ".x-1" ragged ∧
    render ".x-1" (render ".x-1" ragged) = render ".x-1" ragged := by
  have hs : ScopeClass ".x-1" := by decide
  exact ⟨hs, by decide +kernel, by decide +kernel, render_stable hs ragged⟩

end StyleSnippet.Css
