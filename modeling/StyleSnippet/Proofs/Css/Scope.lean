import StyleSnippet.Css.Scope
import StyleSnippet.Proofs.Css.Code
import StyleSnippet.Proofs.Css.Selector

/-!
# Confining a stylesheet

A scan cuts a stylesheet into stretches, each of which ends at a structural boundary, and confines
some of them. Where it cuts and what it confines does not depend on the class, so the scan is told
here in two steps: `stretches` cuts, and `rejoin` confines and puts together.

The confined stylesheet is cut at the same boundaries again, which is proved along the text: what
is held back is read the same with the class put in as without. Hence confining a second time
changes nothing.
-/

set_option autoImplicit false

namespace StyleSnippet.Css

open Text

variable {scope s t : Text} {m : Mode} {stack : ContextStack}

/-! ## Cutting -/

/-- Text up to a structural boundary, and whether it is a selector list to confine. -/
structure Stretch where
  text : Text
  boundary : Char
  confined : Bool
  deriving DecidableEq, Repr

/-- Whether a character is a structural boundary. -/
def isBoundary (stack : ContextStack) (m : Mode) (c : Char) : Bool :=
  m.isCode && (c = '{' || c = '}' || (c = ';' && stack.current.scopesSelectors))

/-- The open blocks after a boundary that the given text stands in front of. -/
def stackAfter (stack : ContextStack) (held : Text) (c : Char) : ContextStack :=
  if c = '{' then stack.push (Context.ofPrelude (atRule? held))
  else if c = '}' then stack.pop
  else stack

/-- Whether the text in front of a boundary is confined. -/
def isConfined (stack : ContextStack) (held : Text) (c : Char) : Bool :=
  c = '{' && (atRule? held).isNone && stack.current.scopesSelectors

/-- The stretches of a text and what follows the last boundary, where a text is held back. -/
def stretches (m : Mode) (stack : ContextStack) (held : Text) : Text → List Stretch × Text
  | [] => ([], held)
  | c :: r =>
    if isBoundary stack m c then
      let rest := stretches (m.next c) (stackAfter stack held c) [] r
      (⟨held, c, isConfined stack held c⟩ :: rest.1, rest.2)
    else stretches (m.next c) stack (held ++ [c]) r

namespace Stretch

/-- A stretch whose text is confined, if it is to be. -/
def rewritten (scope : Text) (p : Stretch) : Stretch :=
  { p with text := if p.confined then prefixSelectors scope p.text else p.text }

/-- A stretch as it is written. -/
def written (p : Stretch) : Text := p.text ++ [p.boundary]

end Stretch

/-- The text of stretches that are confined, and of what follows them. -/
def rejoin (scope : Text) (p : List Stretch × Text) : Text :=
  p.1.flatMap (fun q => (q.rewritten scope).written) ++ p.2

/-- A scan cuts, confines and puts together. -/
theorem finish_foldl_step (scope : Text) (s : Scan) (css : Text) :
    (css.foldl (Scan.step scope) s).finish.css =
      s.done.reverse ++ rejoin scope (stretches s.mode s.stack s.held.reverse css) := by
  induction css generalizing s with
  | nil => simp [Scan.finish, stretches, rejoin]
  | cons c r ih =>
    rw [List.foldl_cons, ih, Scan.step, stretches]
    by_cases hcode : s.mode.isCode = true
    · by_cases hopen : c = '{'
      · subst hopen
        simp [hcode, isBoundary, Scan.openBlock, stackAfter, rejoin, Stretch.rewritten,
          Stretch.written, isConfined, Scan.prelude]
      · by_cases hclose : c = '}'
        · subst hclose
          simp [hcode, isBoundary, Scan.closeBlock, Scan.flush, stackAfter, rejoin,
            Stretch.rewritten, Stretch.written, isConfined]
        · by_cases hsemi : c = ';' ∧ s.stack.current.scopesSelectors = true
          · obtain ⟨rfl, hscopes⟩ := hsemi
            simp [hcode, hscopes, isBoundary, Scan.flush, stackAfter, rejoin,
              Stretch.rewritten, Stretch.written, isConfined]
          · have hno : isBoundary s.stack s.mode c = false := by
              simpa [isBoundary, hopen, hclose, hcode] using hsemi
            simp [hcode, hopen, hclose, hsemi, hno, Scan.hold]
    · have hno : isBoundary s.stack s.mode c = false := by simp [isBoundary, hcode]
      simp [hcode, hno, Scan.hold]

/-- The confined stylesheet is put together from its stretches. -/
theorem scopeCss_eq (scope css : Text) :
    scopeCss scope css = rejoin scope (stretches .code {} [] css) := by
  rw [scopeCss, scan, finish_foldl_step]
  rfl

/-- Stretches as they are make up the text. -/
theorem flatMap_stretches (m : Mode) (stack : ContextStack) (held css : Text) :
    (stretches m stack held css).1.flatMap Stretch.written ++ (stretches m stack held css).2 =
      held ++ css := by
  induction css generalizing m stack held with
  | nil => simp [stretches]
  | cons c r ih =>
    rw [stretches]
    split
    · simp [ih, Stretch.written]
    · simp [ih]

/-- A stylesheet whose selector lists are confined already stays as it is. -/
theorem scopeCss_eq_self {css : Text}
    (h : ∀ p ∈ (stretches .code {} [] css).1, p.rewritten scope = p) :
    scopeCss scope css = css := by
  have hjoin := flatMap_stretches .code {} [] css
  rw [scopeCss_eq, rejoin]
  conv_rhs => rw [← List.nil_append css, ← hjoin]
  congr 1
  apply List.flatMap_congr
  intro p hp
  rw [h p hp]

/-! ## Text without boundaries -/

/-- A text, read in the given mode, that no boundary cuts. -/
def Quiet (stack : ContextStack) (m : Mode) : Text → Prop
  | [] => True
  | c :: r => isBoundary stack m c = false ∧ Quiet stack (m.next c) r

/-- No boundary cuts two texts, one behind the other, just if none cuts either. -/
theorem quiet_append : Quiet stack m (s ++ t) ↔ Quiet stack m s ∧ Quiet stack (m.after s) t := by
  induction s generalizing m with
  | nil => simp [Quiet]
  | cons c r ih => simp [Quiet, ih, and_assoc]

/-- Text without boundaries is held back. -/
theorem stretches_append (h : Quiet stack m s) (held t : Text) :
    stretches m stack held (s ++ t) = stretches (m.after s) stack (held ++ s) t := by
  induction s generalizing m held with
  | nil => simp
  | cons c r ih =>
    rw [List.cons_append, stretches, if_neg (by simp [h.1]), ih h.2]
    simp

/-- No boundary cuts inert text. -/
theorem quiet_inert {u : Text} (hu : ∀ c ∈ u, Inert c) : Quiet stack .code u := by
  induction u with
  | nil => trivial
  | cons c r ih =>
    obtain ⟨hc, hr⟩ := List.forall_mem_cons.mp hu
    have hnext : Mode.next .code c = .code := hc.afterCode
    have hopen : c ≠ '{' := hc.ne (by decide)
    have hclose : c ≠ '}' := hc.ne (by decide)
    have hsemicolon : c ≠ ';' := hc.ne (by decide)
    refine ⟨by simp [isBoundary, hopen, hclose, hsemicolon], ?_⟩
    rw [hnext]
    exact ih hr

/-- Putting a class in brings up no boundary. -/
theorem Insertion.quiet (hs : ScopeClass scope) (h : Insertion scope m s t)
    (hq : Quiet stack m s) : Quiet stack m t := by
  induction h with
  | nil => exact hq
  | keep m c _ ih => exact ⟨hq.1, ih hq.2⟩
  | put c _ _ ih =>
    rw [quiet_append, after_code_inert hs.inert]
    exact ⟨quiet_inert hs.inert, by simp [isBoundary], ih hq⟩

/-- No opening brace is code of a text without boundaries. -/
theorem Quiet.brace_not_mem (h : Quiet stack m t) : '{' ∉ m.codeFrom t := by
  have hinCode : m.inCode (· = '{') t = [] := by
    induction t generalizing m with
    | nil => rfl
    | cons c r ih =>
      obtain ⟨hc, hr⟩ := h
      have hno : (m.isCode && decide (c = '{')) = false := by
        simp only [isBoundary, Bool.and_eq_false_iff, Bool.or_eq_false_iff] at hc
        rw [Bool.and_eq_false_iff]
        exact hc.imp_right fun h => h.1.1
      rw [Mode.inCode, hno, if_neg Bool.false_ne_true]
      exact ih hr
  rw [← Mode.filter_codeFrom (by decide)] at hinCode
  intro hmem
  have hin : '{' ∈ (m.codeFrom t).filter (· = '{') :=
    List.mem_filter.mpr ⟨hmem, decide_eq_true rfl⟩
  rw [hinCode] at hin
  cases hin

/-- So in text that is held back an at-rule is looked for everywhere, and no brace cuts it. -/
theorem Quiet.atRule?_eq (h : Quiet stack .code t) : atRule? t = firstAtName? (codeOnly t) := by
  apply Css.atRule?_eq
  rw [codeOnly_eq]
  exact h.brace_not_mem

/-! ## Confining twice -/

/-- Behind a boundary is code. -/
theorem next_of_isBoundary {c : Char} (h : isBoundary stack m c = true) : m.next c = .code := by
  simp only [isBoundary, Bool.and_eq_true, Bool.or_eq_true, decide_eq_true_eq] at h
  obtain ⟨hm, hc⟩ := h
  have hchar : c = '{' ∨ c = '}' ∨ c = ';' := by
    rcases hc with (h | h) | h
    · exact Or.inl h
    · exact Or.inr (Or.inl h)
    · exact Or.inr (Or.inr h.1)
  rcases Mode.eq_code_or_slash hm with rfl | rfl <;> rcases hchar with rfl | rfl | rfl <;> rfl

/-- The text in front of a boundary is written with the class put in, or as it is. -/
theorem insertion_rewritten (hs : ScopeClass scope) (p : Stretch) :
    Insertion scope .code p.text (p.rewritten scope).text := by
  rw [Stretch.rewritten]
  split
  · exact insertion_prefixSelectors hs p.text
  · exact Insertion.refl scope .code p.text

/-- The text in front of a boundary: confining it leaves the same blocks open and is itself to be
confined again. -/
theorem confined_again (hs : ScopeClass scope) {held : Text} (hquiet : Quiet stack .code held)
    (c : Char) :
    let w := ((⟨held, c, isConfined stack held c⟩ : Stretch).rewritten scope).text
    isConfined stack w c = isConfined stack held c ∧
      stackAfter stack w c = stackAfter stack held c := by
  intro w
  by_cases hconf : isConfined stack held c = true
  · have hins : Insertion scope .code held w :=
      insertion_rewritten hs ⟨held, c, isConfined stack held c⟩
    have hparts : (c = '{' ∧ atRule? held = none) ∧ stack.current.scopesSelectors = true := by
      simpa [isConfined, Option.isNone_iff_eq_none] using hconf
    obtain ⟨⟨rfl, hnone⟩, hscopes⟩ := hparts
    have hnone' : atRule? w = none := by
      rw [hquiet.atRule?_eq, codeOnly_eq] at hnone
      rw [(hins.quiet hs hquiet).atRule?_eq, codeOnly_eq]
      exact (hins.firstAtName? hs hnone).1
    exact ⟨by simp [isConfined, hnone, hnone'], by simp [stackAfter, hnone, hnone']⟩
  · have hw : w = held := by simp [w, Stretch.rewritten, hconf]
    rw [hw]
    exact ⟨rfl, rfl⟩

/-- A confined stylesheet is cut where the stylesheet was, into the confined stretches. -/
theorem stretches_rejoin (hs : ScopeClass scope) (stack : ContextStack) (held css : Text)
    (hquiet : Quiet stack .code held) :
    stretches .code stack [] (rejoin scope (stretches (Mode.after .code held) stack held css)) =
      ((stretches (Mode.after .code held) stack held css).1.map (·.rewritten scope),
        (stretches (Mode.after .code held) stack held css).2) := by
  induction css generalizing stack held with
  | nil =>
    simpa [stretches, rejoin] using stretches_append hquiet [] []
  | cons c r ih =>
    rw [stretches]
    by_cases hb : isBoundary stack (Mode.after .code held) c = true
    · -- The confined stretch ends at the same boundary, and leaves the same blocks open.
      have hins := insertion_rewritten hs ⟨held, c, isConfined stack held c⟩
      obtain ⟨hconf, hstack⟩ := confined_again hs hquiet c
      set w := ((⟨held, c, isConfined stack held c⟩ : Stretch).rewritten scope).text with hw
      have hnext := next_of_isBoundary hb
      have hrest := ih (stackAfter stack held c) [] trivial
      rw [Mode.after_nil] at hrest
      have hjoin : rejoin scope
          (⟨held, c, isConfined stack held c⟩ ::
              (stretches .code (stackAfter stack held c) [] r).1,
            (stretches .code (stackAfter stack held c) [] r).2) =
          w ++ c :: rejoin scope (stretches .code (stackAfter stack held c) [] r) := by
        simp [rejoin, Stretch.written, hw]
        rfl
      rw [if_pos hb, hnext, hjoin, stretches_append (hins.quiet hs hquiet), hins.after_eq hs,
        List.nil_append, stretches, if_pos hb, hnext, hstack, hconf, hrest]
      rfl
    · have hb' : isBoundary stack (Mode.after .code held) c = false := by simpa using hb
      have hafter : Mode.after .code (held ++ [c]) = (Mode.after .code held).next c := by
        rw [Mode.after_append]
        rfl
      have hheld := ih stack (held ++ [c]) (quiet_append.mpr ⟨hquiet, hb', trivial⟩)
      rw [hafter] at hheld
      rw [if_neg hb]
      exact hheld

/-- The stretches of a confined stylesheet are confined. -/
theorem stretches_scopeCss (hs : ScopeClass scope) (css : Text) :
    stretches .code {} [] (scopeCss scope css) =
      ((stretches .code {} [] css).1.map (·.rewritten scope), (stretches .code {} [] css).2) := by
  rw [scopeCss_eq]
  exact stretches_rejoin hs {} [] css trivial

/-- A stretch that is confined stays as it is. -/
theorem rewritten_rewritten (hs : ScopeClass scope) (p : Stretch) :
    (p.rewritten scope).rewritten scope = p.rewritten scope := by
  cases hp : p.confined
  · simp [Stretch.rewritten, hp]
  · simp [Stretch.rewritten, hp, prefixSelectors_prefixSelectors hs]

/-- In a confined stylesheet, nothing is left to confine. -/
theorem rewritten_of_mem_scopeCss (hs : ScopeClass scope) {css : Text} {p : Stretch}
    (h : p ∈ (stretches .code {} [] (scopeCss scope css)).1) : p.rewritten scope = p := by
  rw [stretches_scopeCss hs] at h
  obtain ⟨q, -, rfl⟩ := List.mem_map.mp h
  exact rewritten_rewritten hs q

/-- Confining a stylesheet twice is confining it once. -/
theorem scopeCss_scopeCss (hs : ScopeClass scope) (css : Text) :
    scopeCss scope (scopeCss scope css) = scopeCss scope css := by
  apply scopeCss_eq_self
  intro p hp
  exact rewritten_of_mem_scopeCss hs hp

/-- A comment with a brace, a comma in parentheses, an at-sign in a string, a class that only starts
like the scope class, and a comment that does not end. -/
def unclosed : Text :=
  "a,/*\x7b*/i:is(b,c)\x7bd:e\x7d@media x\x7b[f=\"@g\"],.x-1_ h\x7b\x7d/*"

/-- The stylesheet is changed by confining, and not changed again. -/
theorem scopeCss_scopeCss_unclosed : ScopeClass ".x-1" ∧ scopeCss ".x-1" unclosed ≠ unclosed ∧
    scopeCss ".x-1" (scopeCss ".x-1" unclosed) = scopeCss ".x-1" unclosed := by
  have hs : ScopeClass ".x-1" := by decide
  refine ⟨hs, by decide +kernel, ?_⟩
  exact scopeCss_scopeCss hs unclosed

/-- A confined stylesheet is the stylesheet with the class put in. -/
theorem insertion_scopeCss (hs : ScopeClass scope) (css : Text) :
    Insertion scope .code css (scopeCss scope css) := by
  suffices h : ∀ (stack : ContextStack) (held css : Text),
      Insertion scope .code (held ++ css)
        (rejoin scope (stretches (Mode.after .code held) stack held css)) by
    rw [scopeCss_eq]
    exact h {} [] css
  intro stack held css
  induction css generalizing stack held with
  | nil => simpa [stretches, rejoin] using Insertion.refl scope .code held
  | cons c r ih =>
    rw [stretches]
    by_cases hb : isBoundary stack (Mode.after .code held) c = true
    · have hins := insertion_rewritten hs ⟨held, c, isConfined stack held c⟩
      have hrest := ih (stackAfter stack held c) []
      rw [Mode.after_nil, List.nil_append] at hrest
      have hnext := next_of_isBoundary hb
      rw [if_pos hb, hnext]
      simp only [rejoin, List.flatMap_cons, Stretch.written, List.append_assoc]
      apply hins.append
      apply Insertion.keep
      rw [hnext]
      exact hrest
    · have hafter : Mode.after .code (held ++ [c]) = (Mode.after .code held).next c := by
        rw [Mode.after_append]
        rfl
      have hheld := ih stack (held ++ [c])
      rw [hafter, List.append_assoc, List.singleton_append] at hheld
      rw [if_neg hb]
      exact hheld

end StyleSnippet.Css
