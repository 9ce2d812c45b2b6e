import StyleSnippet.Proofs.Document.Sharing
import StyleSnippet.Proofs.Text.Ink

/-!
# The CSS that settings gather

When pieces of CSS have been handed out, a setting has the pieces that went to it behind the CSS
that it had: in order, a blank line between every two that are not empty. A setting that no piece
went to is as it was. No ink is lost and none comes up: the ink of all settings together is what it
was, and the ink of the pieces that went to somebody.
-/

set_option autoImplicit false

namespace StyleSnippet

open Text

/-! ## Paragraphs -/

namespace Body

/-- Paragraphs that are trimmed are trimmed when they are put together. -/
theorem trimmed_paragraphs {ts : List Text} (h : ∀ t ∈ ts, Trimmed t) :
    Trimmed (paragraphs ts) := by
  apply trimmed_intercalate
  intro t ht
  obtain ⟨hmem, hne⟩ := List.mem_filter.mp ht
  exact ⟨by simpa using hne, h t hmem⟩

/-- Paragraphs that are put in front of others are paragraphs among them. -/
theorem paragraphs_paragraphs_cons (ts us : List Text) :
    paragraphs (paragraphs ts :: us) = paragraphs (ts ++ us) := by
  rw [paragraphs, paragraphs, paragraphs, List.filter_append]
  cases h : ts.filter fun t => !t.isEmpty with
  | nil => rfl
  | cons t ts' =>
    have ht : t ≠ [] := by
      have hmem : t ∈ ts.filter fun t => !t.isEmpty := by simp [h]
      simpa using (List.mem_filter.mp hmem).2
    have hne : (List.intercalate "\n\n".toList (t :: ts')).isEmpty = false := by
      simp [intercalate_cons, ht]
    rw [List.filter_cons, hne, Bool.not_false, if_pos rfl, List.cons_append, intercalate_cons,
      intercalate_cons, intercalate_cons, List.flatMap_append, List.append_assoc]

/-- The ink of paragraphs is the ink of each, in order. -/
theorem ink_paragraphs (ts : List Text) : ink (paragraphs ts) = ts.flatMap ink := by
  rw [paragraphs, ← flatMap_ink_filter]
  exact ink_intercalate blank_blankLine _

/-- The passages of a split body and the CSS in front of them make up the body. -/
theorem passages_written (s : List (Occurrence Text) × Text) :
    (passages s).1 ++ (passages s).2.flatMap Passage.written = Pattern.join s := by
  obtain ⟨os, rest⟩ := s
  induction os with
  | nil => simp [passages, Pattern.join]
  | cons o os ih =>
    rw [passages_cons o (os, rest)]
    simpa [Passage.written, Pattern.join] using ih

end Body

/-! ## The CSS of one setting -/

namespace Setting

open Body

variable {settings settings' : List Setting} {ts us : List Text} {css : Option Text} {t : Text}

/-- The CSS of a setting and pieces behind it, a blank line between every two that are not empty.
Without pieces the CSS is left alone. -/
def gather (ts : List Text) (css : Option Text) : Option Text :=
  if ts.isEmpty then css else some (paragraphs (trim (css.getD []) :: ts))

/-- Where there are no pieces, the CSS stays as it is. -/
@[simp] theorem gather_nil (css : Option Text) : gather [] css = css := rfl

/-- Adding a piece is gathering it. -/
theorem addCss_eq_gather (t : Text) (css : Option Text) : addCss t css = gather [t] css := by
  have hnone : paragraphs [[], t] = t := by cases t <;> simp [paragraphs]
  cases css with
  | none =>
    rw [addCss_none]
    simp [gather, hnone]
  | some raw =>
    rw [addCss, Option.map_some]
    cases hraw : trim raw with
    | nil => simp [gather, hraw, hnone, Option.filter_some]
    | cons c r =>
      cases t with
      | nil => simp [gather, hraw, paragraphs, Option.filter_some]
      | cons d t => simp [gather, hraw, paragraphs, Option.filter_some]

/-- Pieces that are gathered one after the other are gathered together. -/
theorem gather_gather (hts : ∀ t ∈ ts, Trimmed t) :
    gather us (gather ts css) = gather (ts ++ us) css := by
  cases ts with
  | nil => rfl
  | cons t ts =>
    have htrim : Trimmed (paragraphs (trim (css.getD []) :: t :: ts)) :=
      trimmed_paragraphs (List.forall_mem_cons.mpr ⟨trimmed_trim _, hts⟩)
    cases us with
    | nil => simp
    | cons u us =>
      simp only [gather, List.isEmpty_cons, Bool.false_eq_true, if_false, List.cons_append,
        Option.getD_some, htrim.trim_eq, paragraphs_paragraphs_cons]

/-- Pieces that are added in turn are gathered. -/
theorem foldl_addCss {ps : List Piece} (hps : ∀ p ∈ ps, Trimmed p.css) (css : Option Text) :
    ps.foldl (fun css p => addCss p.css css) css = gather (ps.map (·.css)) css := by
  induction ps generalizing css with
  | nil => rfl
  | cons p ps ih =>
    obtain ⟨hp, hps⟩ := List.forall_mem_cons.mp hps
    have hone : ∀ t ∈ [p.css], Trimmed t := by simpa using hp
    rw [List.foldl_cons, ih hps, addCss_eq_gather, gather_gather hone]
    rfl

/-! ## Settings that pieces have been handed to -/

/-- Settings that pieces of CSS have been handed to. A piece goes to the first setting, depth
first, that accepts it. -/
structure Handed (settings : List Setting) (ps : List Piece) (settings' : List Setting) : Prop where
  /-- Nothing but CSS has changed. -/
  form : formAll settings' = formAll settings
  /-- Every setting has gathered the pieces that went to it. -/
  css : ∀ i, (cssAll settings')[i]? = (cssAll settings)[i]?.map
    (gather ((ps.filter fun p => ownerIdx settings p = i).map (·.css)))

/-- Pieces that are handed out one by one go where they are to go. -/
theorem handed_handOut {ps : List Piece} (hform : ∀ p ∈ ps, FormTest p.accepts)
    (htrim : ∀ p ∈ ps, Trimmed p.css) (settings : List Setting) :
    Handed settings ps (handOut settings ps) := by
  obtain ⟨hsame, hcss⟩ := cssAll_handOut hform settings
  refine ⟨hsame, fun i => ?_⟩
  have hmine : ∀ p ∈ ps.filter fun p => ownerIdx settings p = i, Trimmed p.css :=
    fun p hp => htrim p (List.mem_of_mem_filter hp)
  rw [hcss]
  congr 1
  funext css
  exact foldl_addCss hmine css

/-- A setting that accepts none of the pieces has the CSS that it had. -/
theorem Handed.css_eq {ps : List Piece} (h : Handed settings ps settings') {i : Nat} {s : Setting}
    (hs : (depthFirstAll settings)[i]? = some s) (hnone : ∀ p ∈ ps, p.accepts s = false) :
    (cssAll settings')[i]? = some s.css := by
  obtain ⟨hi, rfl⟩ := List.getElem?_eq_some_iff.mp hs
  have hmine : (ps.filter fun p => ownerIdx settings p = i) = [] := by
    rw [List.filter_eq_nil_iff]
    intro p hp howner
    obtain rfl : (depthFirstAll settings).findIdx p.accepts = i := of_decide_eq_true howner
    have haccepts := List.findIdx_getElem (w := hi)
    rw [hnone p hp] at haccepts
    simp at haccepts
  rw [h.css, hmine, cssAll, List.getElem?_map, hs]
  rfl

/-! ## The ink of all settings -/

/-- The ink of the CSS of all settings, depth first. -/
def inkAll (settings : List Setting) : Text :=
  (cssAll settings).flatMap fun css => ink (css.getD [])

/-- Adding a piece adds its ink behind the ink that is there. -/
theorem ink_addCss (t : Text) (css : Option Text) :
    ink ((addCss t css).getD []) = ink (css.getD []) ++ ink t := by
  rw [addCss_eq_gather]
  simp [gather, ink_paragraphs]

/-- The ink of all settings is what it was and the ink of the pieces that went to somebody. -/
theorem perm_inkAll_handOut {ps : List Piece} (hform : ∀ p ∈ ps, FormTest p.accepts)
    (settings : List Setting) : (inkAll (handOut settings ps)).Perm
      (inkAll settings ++ (ps.filter (owned settings)).flatMap fun p => ink p.css) := by
  induction ps generalizing settings with
  | nil => simp [handOut]
  | cons p ps ih =>
    obtain ⟨hp, hps⟩ := List.forall_mem_cons.mp hform
    rw [handOut]
    cases h : updateFirstOf? p.accepts (appendCss p.css) settings with
    | none =>
      have howned : owned settings p = false :=
        owned_eq_false_iff.mpr (updateFirstOf?_eq_none.mp h)
      rw [Option.getD_none, List.filter_cons_of_neg (by simp [howned])]
      exact ih hps settings
    | some settings' =>
      obtain ⟨hsame, l₁, s, l₂, hl, -, hs, hcss⟩ := of_updateFirstOf? (appendCss_eq p.css) h
      have howned : owned settings p = true := owned_iff.mpr ⟨s, by simp [hl], hs⟩
      have hrest : ps.filter (owned settings') = ps.filter (owned settings) :=
        List.filter_congr fun q hq => owned_eq (hps q hq) hsame
      have hbase : cssAll settings = l₁.map (·.css) ++ s.css :: l₂.map (·.css) := by
        simp [cssAll, hl]
      have hone : (inkAll settings').Perm (inkAll settings ++ ink p.css) := by
        simp only [inkAll, hcss, hbase, List.flatMap_append, List.flatMap_cons, ink_addCss,
          List.append_assoc]
        exact (List.perm_append_comm.append_left _).append_left _
      rw [Option.getD_some, List.filter_cons_of_pos howned, List.flatMap_cons, ← hrest,
        ← List.append_assoc]
      exact (ih hps settings').trans (hone.append_right _)

end Setting

/-! ## Bodies that are shared out -/

namespace Body

open Setting

/-- The pieces of a body are trimmed. -/
theorem trimmed_of_mem_pieces {format : BlockFormat} {body : Text} {p : Piece}
    (h : p ∈ pieces format body) : Trimmed p.css := by
  cases format with
  | cell =>
    obtain ⟨o, -, rfl⟩ := List.mem_map.mp h
    exact trimmed_trim o.value.content
  | asterisk =>
    obtain ⟨q, -, rfl⟩ := List.mem_map.mp h
    exact trimmed_trim q.css

/-- By either convention, sharing out a body hands its pieces to the settings. -/
theorem handed_share (format : BlockFormat) (settings : List Setting) (body : Text) :
    Handed settings (pieces format body) (share format settings body).settings := by
  rw [share_settings]
  exact handed_handOut (fun p => formTest_of_mem_pieces) (fun p => trimmed_of_mem_pieces) settings

end Body

end StyleSnippet
