import StyleSnippet.Proofs.Settings.Forest
import StyleSnippet.Proofs.Text.Trim

/-!
# Handing out pieces of CSS

A body is shared out piece by piece: each piece goes to the first setting, depth first, that a
test accepts, behind what that setting has already. Who gets a piece is settled by the form of the
forest, so it does not depend on the pieces handed out before, and every setting ends up with its
own pieces in order.
-/

set_option autoImplicit false

namespace StyleSnippet.Setting

/-- A piece of CSS, and the settings that it can go to. -/
structure Piece where
  accepts : Setting → Bool
  css : Text

/-- The CSS of a setting, a piece added to it. -/
def addCss (content : Text) (css : Option Text) : Option Text :=
  some (match (css.map Text.trim).filter fun css => !css.isEmpty with
    | some css => if content.isEmpty then css else css ++ "\n\n" ++ content
    | none => content)

/-- Appending CSS to a setting changes its CSS alone. -/
theorem appendCss_eq (content : Text) (s : Setting) :
    appendCss content s = { s with css := addCss content s.css } := rfl

/-- The first piece of a setting is its CSS. -/
@[simp] theorem addCss_none (content : Text) : addCss content none = some content := rfl

/-- Hands out pieces in order. A piece that no setting accepts is dropped. -/
def handOut (settings : List Setting) : List Piece → List Setting
  | [] => settings
  | p :: ps => handOut ((updateFirstOf? p.accepts (appendCss p.css) settings).getD settings) ps

/-- A test that does not look at CSS. -/
def FormTest (test : Setting → Bool) : Prop :=
  ∀ s : Setting, test { s with css := none, nested := formAll s.nested } = test s

/-- The position, depth first, of the setting that a piece goes to; the number of settings if it
goes to none. -/
def ownerIdx (settings : List Setting) (p : Piece) : Nat :=
  (depthFirstAll settings).findIdx p.accepts

variable {settings settings' : List Setting} {p : Piece} {ps : List Piece}

/-- Who gets a piece is settled by the form. -/
theorem ownerIdx_eq (hp : FormTest p.accepts) (h : formAll settings = formAll settings') :
    ownerIdx settings p = ownerIdx settings' p := by
  have hidx (l : List Setting) : l.findIdx p.accepts = (l.map p.accepts).findIdx (·) := by
    rw [List.findIdx_map]
    rfl
  rw [ownerIdx, ownerIdx, hidx, hidx, map_depthFirstAll hp h]

/-- Whether some setting accepts a piece. -/
def owned (settings : List Setting) (p : Piece) : Bool := (depthFirstAll settings).any p.accepts

/-- A piece is owned just if some setting accepts it. -/
theorem owned_iff : owned settings p = true ↔ ∃ s ∈ depthFirstAll settings, p.accepts s = true :=
  List.any_eq_true

/-- A piece is not owned just if no setting accepts it. -/
theorem owned_eq_false_iff :
    owned settings p = false ↔ ∀ s ∈ depthFirstAll settings, p.accepts s = false := by
  simp [owned]

/-- Whether somebody gets a piece is settled by the form. -/
theorem owned_eq (hp : FormTest p.accepts) (h : formAll settings = formAll settings') :
    owned settings p = owned settings' p := by
  have hany (l : List Setting) : l.any p.accepts = (l.map p.accepts).any (·) := by
    rw [List.any_map]
    rfl
  rw [owned, owned, hany, hany, map_depthFirstAll hp h]

/-- Handing out one piece keeps the form and changes the CSS of the owner. -/
theorem handOut_one (p : Piece) (settings : List Setting) :
    formAll (handOut settings [p]) = formAll settings ∧
      ∀ i, (cssAll (handOut settings [p]))[i]? = (cssAll settings)[i]?.map fun css =>
        if ownerIdx settings p = i then addCss p.css css else css := by
  rw [handOut, handOut]
  cases h : updateFirstOf? p.accepts (appendCss p.css) settings with
  | none =>
    refine ⟨rfl, fun i => ?_⟩
    have howner : ownerIdx settings p = (depthFirstAll settings).length :=
      List.findIdx_eq_length.mpr (updateFirstOf?_eq_none.mp h)
    rw [Option.getD_none]
    by_cases hi : i < (depthFirstAll settings).length
    · have hne : ownerIdx settings p ≠ i := by omega
      simp [hne]
    · have hnone : (cssAll settings)[i]? = none := by simpa using hi
      simp [hnone]
  | some settings' =>
    obtain ⟨hform, l₁, s, l₂, hl, hbefore, hs, hcss⟩ := of_updateFirstOf? (appendCss_eq p.css) h
    refine ⟨hform, fun i => ?_⟩
    have howner : ownerIdx settings p = l₁.length := by
      rw [ownerIdx, hl, List.findIdx_append, List.findIdx_eq_length.mpr hbefore]
      simp [List.findIdx_cons, hs]
    have hbase : cssAll settings = l₁.map (·.css) ++ s.css :: l₂.map (·.css) := by
      simp [cssAll, hl]
    rw [Option.getD_some, hcss, hbase, howner]
    -- Positions in front of the owner, that of the owner, and those behind it.
    rcases Nat.lt_trichotomy i l₁.length with hi | rfl | hi
    · have hne : l₁.length ≠ i := by omega
      rw [List.getElem?_append_left (by simpa using hi),
        List.getElem?_append_left (by simpa using hi)]
      simp only [if_neg hne, Option.map_id']
    · simp
    · have hne : l₁.length ≠ i := by omega
      obtain ⟨k, rfl⟩ : ∃ k, i = l₁.length + (k + 1) := ⟨i - l₁.length - 1, by omega⟩
      rw [List.getElem?_append_right (by simp), List.getElem?_append_right (by simp)]
      simp only [if_neg hne, Option.map_id', List.length_map, Nat.add_sub_cancel_left,
        List.getElem?_cons_succ]

/-- Handing out pieces keeps the form, and adds to the CSS of every setting its own pieces. -/
theorem cssAll_handOut (hps : ∀ p ∈ ps, FormTest p.accepts) (settings : List Setting) :
    formAll (handOut settings ps) = formAll settings ∧
      ∀ i, (cssAll (handOut settings ps))[i]? = (cssAll settings)[i]?.map fun css =>
        (ps.filter fun p => ownerIdx settings p = i).foldl (fun css p => addCss p.css css) css := by
  induction ps generalizing settings with
  | nil => exact ⟨rfl, fun i => by simp [handOut]⟩
  | cons p ps ih =>
    obtain ⟨hform, hcss⟩ := handOut_one p settings
    obtain ⟨hform', hcss'⟩ := ih (fun q hq => hps q (List.mem_cons_of_mem p hq))
      (handOut settings [p])
    have hsplit : handOut settings (p :: ps) = handOut (handOut settings [p]) ps := rfl
    refine ⟨by rw [hsplit, hform', hform], fun i => ?_⟩
    have hfilter : (ps.filter fun q => ownerIdx (handOut settings [p]) q = i) =
        ps.filter fun q => ownerIdx settings q = i := by
      apply List.filter_congr
      intro q hq
      rw [ownerIdx_eq (hps q (List.mem_cons_of_mem p hq)) hform]
    rw [hsplit, hcss', hcss, hfilter, Option.map_map]
    congr 1
    funext css
    by_cases howner : ownerIdx settings p = i
    · simp [howner]
    · simp [howner]

/-- Pieces made of the settings of a list in turn, each of which its own setting accepts and no
setting before it: just the piece of one setting has that setting for its first. -/
theorem filter_filterMap_findIdx {piece? : Setting → Option Piece} {l : List Setting}
    (hself : ∀ s ∈ l, ∀ p ∈ piece? s, p.accepts s = true)
    (hfirst : l.Pairwise fun s t => ∀ p ∈ piece? t, p.accepts s = false) (i : Nat) :
    ((l.filterMap piece?).filter fun p => l.findIdx p.accepts = i) =
      (l[i]?.bind piece?).toList := by
  induction l generalizing i with
  | nil => simp
  | cons s l ih =>
    rw [List.pairwise_cons] at hfirst
    have hl := ih (fun t ht => hself t (List.mem_cons_of_mem s ht)) hfirst.2
    -- The first setting takes no piece of a later one, so each is found one position further on.
    have hlater : ∀ p ∈ l.filterMap piece?,
        (s :: l).findIdx p.accepts = l.findIdx p.accepts + 1 := by
      intro p hp
      obtain ⟨t, ht, hpt⟩ := List.mem_filterMap.mp hp
      rw [List.findIdx_cons, hfirst.1 t ht p hpt]
      rfl
    have hrest (i : Nat) : ((l.filterMap piece?).filter fun p => (s :: l).findIdx p.accepts = i) =
        ((l.filterMap piece?).filter fun p => l.findIdx p.accepts + 1 = i) := by
      apply List.filter_congr
      intro p hp
      rw [hlater p hp]
    have hzero : ∀ p ∈ piece? s, (s :: l).findIdx p.accepts = 0 := by
      intro p hp
      rw [List.findIdx_cons, hself s (by simp) p hp]
      rfl
    cases i with
    | zero =>
      have hnone : ((l.filterMap piece?).filter fun p => (s :: l).findIdx p.accepts = 0) = [] := by
        rw [hrest]
        simp
      cases hs : piece? s with
      | none => simp [hs, hnone]
      | some p => simp [hs, hzero p hs, hnone]
    | succ i =>
      have hsome : ((l.filterMap piece?).filter fun p => (s :: l).findIdx p.accepts = i + 1) =
          (l[i]?.bind piece?).toList := by
        rw [hrest, ← hl i]
        simp
      cases hs : piece? s with
      | none => simp [hs, hsome]
      | some p => simp [hs, hzero p hs, hsome]

/-- Settings without CSS that are handed the pieces made of them end up with these as their CSS. -/
theorem handOut_formAll (settings : List Setting) (piece? : Setting → Option Piece)
    (hform : ∀ s, ∀ p ∈ piece? s, FormTest p.accepts)
    (hself : ∀ s ∈ depthFirstAll settings, ∀ p ∈ piece? s, p.accepts s = true)
    (hfirst : (depthFirstAll settings).Pairwise fun s t => ∀ p ∈ piece? t, p.accepts s = false) :
    handOut (formAll settings) ((depthFirstAll settings).filterMap piece?) =
      withCssAll (fun s => (piece? s).map (·.css)) settings := by
  have hps : ∀ p ∈ (depthFirstAll settings).filterMap piece?, FormTest p.accepts := by
    intro p hp
    obtain ⟨s, -, hs⟩ := List.mem_filterMap.mp hp
    exact hform s p hs
  obtain ⟨hsame, hcss⟩ := cssAll_handOut hps (formAll settings)
  have hformForm : formAll (formAll settings) = formAll settings := formAll_withCssAll _ _
  apply eq_of_formAll_eq
  · rw [hsame, hformForm, formAll_withCssAll]
  · apply List.ext_getElem?
    intro i
    have hfilter : ((depthFirstAll settings).filterMap piece?).filter
        (fun p => ownerIdx (formAll settings) p = i) =
        ((depthFirstAll settings)[i]?.bind piece?).toList := by
      rw [← filter_filterMap_findIdx hself hfirst i]
      apply List.filter_congr
      intro p hp
      rw [ownerIdx_eq (hps p hp) hformForm, ownerIdx]
    rw [hcss, hfilter, formAll, cssAll_withCssAll, cssAll_withCssAll, List.getElem?_map,
      List.getElem?_map]
    cases (depthFirstAll settings)[i]? with
    | none => rfl
    | some s =>
      cases hp : piece? s with
      | none => simp [hp]
      | some p => simp [hp]

/-! ## Pieces made of settings -/

section Pieces

variable {accepts : Setting → Text → Setting → Bool} {css? : Setting → Option Text}

/-- The pieces made of the CSS that settings are to have, depth first. -/
def piecesOf (accepts : Setting → Text → Setting → Bool) (css? : Setting → Option Text)
    (settings : List Setting) : List Piece :=
  (depthFirstAll settings).filterMap fun s => (css? s).map fun css => ⟨accepts s css, css⟩

/-- A piece that is made of the CSS of a setting is owned, if the setting accepts it. -/
theorem owned_of_mem_piecesOf (hform : ∀ s css, FormTest (accepts s css))
    (hself : ∀ s ∈ depthFirstAll settings, ∀ css ∈ css? s, accepts s css s = true)
    (hp : p ∈ piecesOf accepts css? settings) : owned (formAll settings) p = true := by
  obtain ⟨s, hs, hpiece⟩ := List.mem_filterMap.mp hp
  obtain ⟨css, hcss, rfl⟩ := Option.map_eq_some_iff.mp hpiece
  have hformForm : formAll (formAll settings) = formAll settings := formAll_withCssAll _ _
  rw [owned_eq (hform s css) hformForm, owned_iff]
  exact ⟨s, hs, hself s hs css hcss⟩

/-- Each setting gets the piece that was made of it if it accepts the piece and none in front of it
does. -/
theorem handOut_piecesOf (hform : ∀ s css, FormTest (accepts s css))
    (hself : ∀ s ∈ depthFirstAll settings, ∀ css ∈ css? s, accepts s css s = true)
    (hfirst : (depthFirstAll settings).Pairwise fun s t =>
      ∀ css ∈ css? t, accepts t css s = false) :
    handOut (formAll settings) (piecesOf accepts css? settings) = withCssAll css? settings := by
  rw [piecesOf, handOut_formAll]
  · apply congrArg (withCssAll · settings)
    funext s
    cases css? s <;> rfl
  · intro s p hp
    obtain ⟨css, -, rfl⟩ := Option.map_eq_some_iff.mp hp
    exact hform s css
  · intro s hs p hp
    obtain ⟨css, hcss, rfl⟩ := Option.map_eq_some_iff.mp hp
    exact hself s hs css hcss
  · apply hfirst.imp
    intro s t hst p hp
    obtain ⟨css, hcss, rfl⟩ := Option.map_eq_some_iff.mp hp
    exact hst css hcss

end Pieces

/-! ## Who has CSS -/

variable {css : Option Text} {content : Text}

/-- CSS that is there and not blank. -/
def Inked (css : Option Text) : Prop := ∃ t ∈ css, ¬ Text.Blank t

/-- A setting has something to print just if its CSS is not blank. -/
theorem isSome_fragment?_iff {s : Setting} : s.fragment?.isSome ↔ Inked s.css := by
  rw [fragment?, Inked]
  cases s.css with
  | none => simp
  | some t => simp [Option.isSome_filter, Text.trim_eq_nil_iff]

/-- A piece that is added makes CSS inked just if it is not blank. -/
theorem inked_addCss : Inked (addCss content css) ↔ Inked css ∨ ¬ Text.Blank content := by
  have hfilter : ((css.map Text.trim).filter fun t => !t.isEmpty).isSome ↔ Inked css := by
    cases css with
    | none => simp [Inked]
    | some t => simp [Inked, Text.trim_eq_nil_iff]
  rw [addCss, ← hfilter]
  cases h : (css.map Text.trim).filter fun t => !t.isEmpty with
  | none => simp [Inked]
  | some t =>
    rw [Option.filter_eq_some_iff, Option.map_eq_some_iff] at h
    obtain ⟨⟨raw, -, rfl⟩, hne⟩ := h
    have hink : ¬ Text.Blank (Text.trim raw) :=
      (Text.trimmed_trim raw).not_blank (by simpa using hne)
    simp only [Inked, Option.mem_some_iff, exists_eq_left', Option.isSome_some, true_or, iff_true]
    split
    · exact hink
    · simp [hink]

/-- Pieces that are added make CSS inked just if one of them is not blank. -/
theorem inked_foldl_addCss (ps : List Piece) :
    Inked (ps.foldl (fun css p => addCss p.css css) css) ↔
      Inked css ∨ ∃ p ∈ ps, ¬ Text.Blank p.css := by
  induction ps generalizing css with
  | nil => simp
  | cons p ps ih =>
    rw [List.foldl_cons, ih, inked_addCss, List.exists_mem_cons_iff, or_assoc]

/-- The setting at a position, depth first, has CSS. -/
def HasCssAt (settings : List Setting) (i : Nat) : Prop := ∃ css ∈ (cssAll settings)[i]?, Inked css

/-- A position with CSS is one of a setting. -/
theorem HasCssAt.lt_length {i : Nat} (h : HasCssAt settings i) :
    i < (depthFirstAll settings).length := by
  obtain ⟨css, hcss, -⟩ := h
  simpa [cssAll] using (List.getElem?_eq_some_iff.mp hcss).1

/-- In the form of settings there is no CSS. -/
theorem not_hasCssAt_formAll (settings : List Setting) (i : Nat) :
    ¬ HasCssAt (formAll settings) i := by
  rintro ⟨css, hcss, x, hx, -⟩
  rw [formAll, cssAll_withCssAll, List.getElem?_map, Option.mem_def, Option.map_eq_some_iff] at hcss
  obtain ⟨s, -, rfl⟩ := hcss
  simp at hx

/-- After handing out pieces, a setting has CSS just if it had some or owns a piece that is not
blank. -/
theorem hasCssAt_handOut {ps : List Piece} (hps : ∀ p ∈ ps, FormTest p.accepts) (i : Nat) :
    HasCssAt (handOut settings ps) i ↔ HasCssAt settings i ∨
      i < (depthFirstAll settings).length ∧
        ∃ p ∈ ps, ownerIdx settings p = i ∧ ¬ Text.Blank p.css := by
  have hlen : (cssAll settings).length = (depthFirstAll settings).length := by simp [cssAll]
  rw [HasCssAt, HasCssAt, (cssAll_handOut hps settings).2]
  by_cases hi : i < (depthFirstAll settings).length
  · rw [List.getElem?_eq_getElem (hlen ▸ hi)]
    simp [inked_foldl_addCss, hi, and_assoc]
  · rw [List.getElem?_eq_none (by omega)]
    simp [hi]

end StyleSnippet.Setting
