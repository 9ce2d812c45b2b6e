import StyleSnippet.Proofs.Document.BannerRoundTrip
import StyleSnippet.Proofs.Document.Sharing

/-!
# Who owns the CSS of a snippet that is written and read again

A snippet that is read, written and read again has its body cut anew, and what was cut out of it
before is not where it was. Banners never get lost, so a body with banners is read as such again. A
body with cells can gain a banner, and by either convention pieces can go to other settings; here
is exactly when they do not.
-/

set_option autoImplicit false

namespace StyleSnippet

open Text Css Setting

namespace Config

variable {o : WriteOptions} {c c' c₀ : Config} {t m body : Text} {i : Nat}

/-- A snippet is read as a config with a body shared out. -/
theorem exists_of_ofSnippet (h : ofSnippet t = .ok c) : ∃ c₀ body, c = withBody c₀ body := by
  rw [ofSnippet] at h
  split at h
  · simp at h
  · next b _ =>
    cases hyaml : ofYaml b.yaml with
    | error e => simp [hyaml, Except.map] at h
    | ok c₀ =>
      rw [hyaml, Except.map, Except.ok.injEq] at h
      exact ⟨c₀, _, h.symm⟩

/-- Some setting has CSS just if some setting has CSS to write. -/
theorem hasCssAt_iff_exists : (∃ i, HasCssAt c.settings i) ↔
    ∃ s ∈ c.allSettings, s.fragment?.isSome := by
  simp only [HasCssAt, cssAll, allSettings_eq, List.getElem?_map, isSome_fragment?_iff,
    Option.mem_def, Option.map_eq_some_iff]
  constructor
  · rintro ⟨i, css, ⟨s, hs, rfl⟩, hink⟩
    exact ⟨s, List.mem_of_getElem? hs, hink⟩
  · rintro ⟨s, hs, hink⟩
    obtain ⟨i, hi⟩ := List.mem_iff_getElem?.mp hs
    exact ⟨i, s.css, ⟨s, hi, rfl⟩, hink⟩

/-! ## Banners that are not lost -/

/-- A banner in the global CSS is a banner in the body. -/
theorem occursIn_body_of_globalCss (h : Banner.pattern.occursIn c.globalCss = true) :
    Banner.pattern.occursIn (c.body o) = true := by
  have hformat := Banner.occursIn_formatBlock (Banner.occursIn_trim h)
  have hmem : formatBlock (trim c.globalCss) ∈ c.bodyParts o := by
    rw [bodyParts, List.mem_append, globalPart]
    left
    rw [if_neg]
    · simp
    · intro hempty
      rw [List.isEmpty_iff] at hempty
      rw [hempty] at hformat
      have hnil : formatBlock [] = [] := rfl
      simp [hnil, Pattern.occursIn, Pattern.split] at hformat
  exact Banner.occursIn_mono hformat (infix_of_mem_intercalate _ hmem)

/-- The CSS of a setting is written behind a banner. -/
theorem occursIn_body_of_fragment {s : Setting} (hformat : c.effectiveFormat = .asterisk)
    (hs : s ∈ c.allSettings) (hcss : s.fragment?.isSome) :
    Banner.pattern.occursIn (c.body o) = true := by
  obtain ⟨css, hcss⟩ := Option.isSome_iff_exists.mp hcss
  have hmem : c.fragment o s css ∈ c.bodyParts o := by
    rw [bodyParts, List.mem_append, List.mem_filterMap]
    exact Or.inr ⟨s, hs, by rw [hcss]; rfl⟩
  have hbanner : Banner.pattern.occursIn (c.fragment o s css) = true := by
    rw [fragment, hformat, Banner.render_eq, Pattern.occursIn_iff]
    exact ⟨_, List.suffix_refl _, _, Banner.match?_head _ _ _⟩
  exact Banner.occursIn_mono hbanner (infix_of_mem_intercalate _ hmem)

/-- If no setting has CSS of a body, no setting owns a passage of it. -/
theorem not_owned_of_not_hasCssAt (hformat : Body.formatOf body = .asterisk)
    (hnone : ¬ ∃ i, HasCssAt (withBody c₀ body).settings i) :
    ∀ p ∈ (Body.passages (Banner.pattern.split body)).2,
      owned c₀.settings (Body.passagePiece p) = false := by
  intro p hp
  by_contra howned
  obtain ⟨s, hs, haccepts⟩ := owned_iff.mp (by simpa using howned)
  refine hnone ⟨ownerIdx c₀.settings (Body.passagePiece p),
    (hasCssAt_withBody _ _ _).mpr (Or.inr ⟨?_, Body.passagePiece p, ?_, rfl, ?_⟩)⟩
  · exact List.findIdx_lt_length_of_exists ⟨s, hs, haccepts⟩
  · rw [hformat]
    exact List.mem_map_of_mem hp
  · simp only [Body.passagePiece, Bool.and_eq_true, Bool.not_eq_true', List.isEmpty_eq_false_iff]
      at haccepts
    exact (trimmed_trim p.css).not_blank haccepts.1

/-- A body with a banner has a passage behind it. -/
theorem exists_passage (hformat : Body.formatOf body = .asterisk) :
    ∃ (b : Banner.Shape) (p : Body.Passage), p ∈ (Body.passages (Banner.pattern.split body)).2 ∧
      b.written <:+: trim p.written := by
  have hocc : Banner.pattern.occursIn body = true := by
    by_contra hocc
    simp [Body.formatOf, hocc] at hformat
  obtain ⟨os, rest, hsplit⟩ : ∃ os rest, Banner.pattern.split body = (os, rest) := ⟨_, _, rfl⟩
  cases os with
  | nil => simp [Pattern.occursIn, hsplit] at hocc
  | cons x os =>
    obtain ⟨s, r, hmatch⟩ := Banner.pattern.exists_match?_of_mem body x (by simp [hsplit])
    obtain ⟨b, hb⟩ := Banner.Shape.exists_of_match? hmatch
    obtain ⟨hne, htrim⟩ := b.trimmed_written
    refine ⟨b, ⟨x.written, (Body.passages (os, rest)).1⟩, ?_, ?_⟩
    · rw [hsplit, Body.passages_cons x (os, rest)]
      exact List.mem_cons_self
    · apply htrim.infix_trim hne
      exact ⟨[], (Body.passages (os, rest)).1, by simp [Body.Passage.written, hb]⟩

/-- Passages that no setting owns stay in the global CSS, each with its banner. -/
theorem occursIn_globalCss (hformat : Body.formatOf body = .asterisk)
    (hnone : ¬ ∃ i, HasCssAt (withBody c₀ body).settings i) :
    Banner.pattern.occursIn (withBody c₀ body).globalCss = true := by
  have hunowned := not_owned_of_not_hasCssAt hformat hnone
  obtain ⟨b, p, hmem, hin⟩ := exists_passage hformat
  have hleft : ((Body.passages (Banner.pattern.split body)).2.filter fun q =>
      !owned c₀.settings (Body.passagePiece q)) =
        (Body.passages (Banner.pattern.split body)).2 := by
    rw [List.filter_eq_self]
    intro q hq
    simp [hunowned q hq]
  refine Banner.occursIn_iff.mpr ⟨b, hin.trans ?_⟩
  rw [withBody, hformat]
  simp only [Body.share, Body.sharePassages, Body.handOutPassages_eq, hleft, Body.paragraphs]
  apply infix_of_mem_intercalate
  rw [List.mem_filter]
  refine ⟨List.mem_cons_of_mem _ (List.mem_map_of_mem hmem), ?_⟩
  have hne : trim p.written ≠ [] :=
    fun h => b.trimmed_written.1 (List.infix_nil.mp (h ▸ hin))
  simpa using hne

/-- A snippet whose body keeps to the convention of banners is written with such a body. -/
theorem formatOf_body_of_asterisk (ht : ofSnippet t = .ok c) (hformat : c.format = some .asterisk) :
    Body.formatOf (trim (c.body o)) = .asterisk := by
  have hocc : Banner.pattern.occursIn (c.body o) = true := by
    by_cases hcss : ∃ i, HasCssAt c.settings i
    · obtain ⟨s, hs, hsome⟩ := hasCssAt_iff_exists.mp hcss
      exact occursIn_body_of_fragment (by simp [effectiveFormat, hformat]) hs hsome
    · obtain ⟨c₀, body, rfl⟩ := exists_of_ofSnippet ht
      exact occursIn_body_of_globalCss (occursIn_globalCss (by simpa [withBody] using hformat) hcss)
  rw [Body.formatOf, if_pos (Banner.occursIn_trim hocc)]

/-! ## Who owns what -/

/-- Configs of one convention in which the same settings have CSS. -/
structure SameOwners (c c' : Config) : Prop where
  format : c'.format = c.format
  css : ∀ i, HasCssAt c'.settings i ↔ HasCssAt c.settings i

/-- Rendering gives CSS to the settings that had some. -/
theorem hasCssAt_rendered (h : c.Confines o) (i : Nat) :
    HasCssAt (c.rendered o).settings i ↔ HasCssAt c.settings i := by
  have hsame : ∀ s ∈ c.allSettings, Inked (c.cssOf o s) ↔ Inked s.css := by
    intro s hs
    rw [← isSome_fragment?_iff]
    constructor
    · rintro ⟨css, hcss, -⟩
      rw [cssOf, Option.mem_def, Option.map_eq_some_iff] at hcss
      obtain ⟨raw, hraw, -⟩ := hcss
      simp [hraw]
    · intro hsome
      obtain ⟨raw, hraw⟩ := Option.isSome_iff_exists.mp hsome
      have hcss : formatBlock (scopeCss (c.classOf o s) raw) ∈ c.cssOf o s := by
        simp [cssOf, hraw]
      obtain ⟨hne, htrim⟩ := of_mem_cssOf h hs hcss
      exact ⟨_, hcss, htrim.not_blank hne⟩
  rw [HasCssAt, HasCssAt, rendered, cssAll_withCssAll, cssAll, List.getElem?_map, List.getElem?_map]
  cases hi : (depthFirstAll c.settings)[i]? with
  | none => simp
  | some s =>
    have hs : s ∈ c.allSettings := allSettings_eq c ▸ List.mem_of_getElem? hi
    simp [hsame s hs]

/-- A config with a body shared out anew keeps its owners if the body keeps to the convention, and
if those who own pieces of it that are not blank are those who had CSS. -/
theorem sameOwners_withBody_iff (hformat : c.format = some c.effectiveFormat) :
    SameOwners c (c.bare.withBody body) ↔ Body.formatOf body = c.effectiveFormat ∧
      ∀ i < (depthFirstAll c.settings).length, HasCssAt c.settings i ↔
        ∃ p ∈ Body.pieces c.effectiveFormat body, ownerIdx c.settings p = i ∧ ¬ Blank p.css := by
  have hform : formAll (formAll c.settings) = formAll c.settings := formAll_withCssAll _ _
  have hlen : (depthFirstAll (formAll c.settings)).length = (depthFirstAll c.settings).length :=
    length_depthFirstAll hform
  -- A body is shared out to the form of the settings, which has no CSS that could be there before.
  have hshared (i : Nat) : HasCssAt (c.bare.withBody body).settings i ↔
      i < (depthFirstAll c.settings).length ∧ ∃ p ∈ Body.pieces (Body.formatOf body) body,
        ownerIdx c.settings p = i ∧ ¬ Blank p.css := by
    rw [hasCssAt_withBody, bare, hlen]
    simp only [not_hasCssAt_formAll, false_or]
    have howner : ∀ p ∈ Body.pieces (Body.formatOf body) body,
        ownerIdx (formAll c.settings) p = ownerIdx c.settings p :=
      fun p hp => ownerIdx_eq (Body.formTest_of_mem_pieces hp) hform
    constructor
    · rintro ⟨hi, p, hp, howns, hink⟩
      exact ⟨hi, p, hp, howner p hp ▸ howns, hink⟩
    · rintro ⟨hi, p, hp, howns, hink⟩
      exact ⟨hi, p, hp, (howner p hp).trans howns, hink⟩
  have hkept : (c.bare.withBody body).format = c.format ↔
      Body.formatOf body = c.effectiveFormat := by
    rw [hformat, withBody, Option.some.injEq]
  constructor
  · rintro ⟨hsame, hcss⟩
    have hbody := hkept.mp hsame
    refine ⟨hbody, fun i hi => ?_⟩
    rw [← hcss, hshared, hbody]
    simp [hi]
  · rintro ⟨hbody, hcss⟩
    refine ⟨hkept.mpr hbody, fun i => ?_⟩
    rw [hshared, hbody]
    constructor
    · rintro ⟨hi, hp⟩
      exact (hcss i hi).mpr hp
    · intro hi
      exact ⟨hi.lt_length, (hcss i hi.lt_length).mp hi⟩

/-- A snippet that is read, written and read again keeps its convention and the owners of its CSS
just when its written body, if it is one with cells, holds no banner, and the pieces of that body
that are not blank belong to the settings that had CSS. This is so where the CSS does not hold the
marks of its convention. -/
theorem sameOwners_reopened (ht : ofSnippet t = .ok c) (hreads : c.ReadsBack)
    (hm : c.toSnippet o = .ok m) (hm' : ofSnippet m = .ok c') :
    (SameOwners c c' ↔
      (c.format = some .cell → ¬ Banner.pattern.occursIn (trim (c.body o))) ∧
      ∀ i < (depthFirstAll c.settings).length, HasCssAt c.settings i ↔
        ∃ p ∈ Body.pieces c.effectiveFormat (trim (c.body o)),
          ownerIdx c.settings p = i ∧ ¬ Blank p.css) ∧
    (c.format = some .cell ∧ c.FitsCells ∨ c.format = some .asterisk ∧ c.FitsBanners o →
      SameOwners c c') := by
  have hformat : c.format = some c.effectiveFormat := by
    obtain ⟨c₀, body, rfl⟩ := exists_of_ofSnippet ht
    rfl
  have hc' : c' = c.bare.withBody (trim (c.body o)) := by
    rw [ofSnippet_of_readsBack hreads hm, Except.ok.injEq] at hm'
    exact hm'.symm
  refine ⟨?_, ?_⟩
  · rw [hc', sameOwners_withBody_iff hformat]
    refine and_congr_left fun _ => ?_
    cases heff : c.effectiveFormat with
    | cell =>
      rw [heff] at hformat
      simp [hformat, Body.formatOf]
    | asterisk =>
      rw [heff] at hformat
      simp [hformat, formatOf_body_of_asterisk ht hformat]
  · rintro (⟨hcell, hfits⟩ | ⟨hasterisk, hfits⟩)
    · have heff : c.effectiveFormat = .cell := by simp [effectiveFormat, hcell]
      rw [hfits.ofSnippet_eq heff hreads hm, Except.ok.injEq] at hm'
      subst hm'
      exact ⟨hformat.symm, hasCssAt_rendered (hfits.confines heff o)⟩
    · have heff : c.effectiveFormat = .asterisk := by simp [effectiveFormat, hasterisk]
      rw [hfits.ofSnippet_eq heff hreads hm, Except.ok.injEq] at hm'
      subst hm'
      exact ⟨hformat.symm, hasCssAt_rendered (hfits.confines heff)⟩

/-! ## A banner that comes together -/

/-- A config with one setting. -/
def tornBlock : Config where
  id := "x"
  settings := [
    { id := "a", title := "A", description := none, kind := .classToggle none none, css := none,
      nested := [], extra := [] }]

/-- The settings block of the config. -/
def tornYaml : Text := "id: x\nsettings:\n- id: a\n  title: A\n  type: class-toggle\n"

/-- A body with a cell between a row and a comment, and another row behind them. -/
def tornBody : Text :=
  Banner.row 20 ++ '\n' :: (Cell.render "a" ".a \x7b\x7d" ++ "\n/* title */\n" ++ Banner.row 20)

/-- A snippet with the block and the body. -/
def torn : Text :=
  SettingsBlock.opening ++ SettingsBlock.inside tornYaml ++ SettingsBlock.closing ++
    "\n\n" ++ tornBody ++ "\n"

/-- The config is written so. -/
theorem write?_tornBlock : Yaml.write? (Schema.encode tornBlock) = some tornYaml := by
  decide +kernel

/-- The settings block says the config. -/
theorem read?_tornYaml : Yaml.read? (expandTabs (SettingsBlock.inside tornYaml)) =
    some (Schema.encode tornBlock) := by
  decide +kernel

/-- The snippet is read as the config with the body shared out. -/
theorem ofSnippet_torn : ofSnippet torn = .ok (tornBlock.withBody tornBody) := by
  have hfind : SettingsBlock.find? torn =
      some ⟨[], SettingsBlock.inside tornYaml, "\n\n" ++ tornBody ++ "\n"⟩ := by
    decide +kernel
  have htrim : trim ("\n\n" ++ tornBody ++ "\n") = tornBody := by
    decide +kernel
  have hblock : ofYaml (SettingsBlock.inside tornYaml) = .ok tornBlock :=
    ofYaml_eq_ok.mpr ⟨_, read?_tornYaml, rfl⟩
  rw [ofSnippet, hfind]
  simp only [hblock, htrim, Except.map]

/-- The settings of the snippet are read back as they were written. -/
theorem readsBack_torn : (tornBlock.withBody tornBody).ReadsBack := by
  have hblock : tornBlock.ReadsBack := readsBack_of_read? write?_tornBlock read?_tornYaml rfl
  exact hblock.of_bare_eq (bare_withBody _ _).symm

/-- The body has no banner, so it is one with cells. -/
theorem formatOf_tornBody : Body.formatOf tornBody = .cell := by
  have hocc : Banner.pattern.occursIn tornBody = false := by
    rw [Pattern.occursIn_eq_any_tails]
    decide +kernel
  simp [Body.formatOf, hocc]

/-- Without the cell, the parts around it make up a banner. -/
theorem occursIn_body_torn (o : WriteOptions) :
    Banner.pattern.occursIn ((tornBlock.withBody tornBody).body o) = true := by
  have hrow : ∀ n, n = Cell.opening → ¬ n <:+: Banner.row 20 := by
    rintro n rfl
    decide +kernel
  have htail : ∀ n, n = Cell.opening → ¬ n <:+: "\n/* title */\n".toList ++ Banner.row 20 := by
    rintro n rfl
    decide +kernel
  have hsplit : Cell.pattern.split tornBody =
      ([⟨Banner.row 20 ++ ['\n'], Cell.around "a" ".a \x7b\x7d", Cell.render "a" ".a \x7b\x7d"⟩],
        "\n/* title */\n" ++ Banner.row 20) := by
    rw [tornBody, Cell.marked.split_append hrow (Or.inr ⟨_, rfl⟩), Cell.marked.split_cons,
      List.append_assoc,
      Cell.pattern.split_of_match (Cell.match?_render (by decide +kernel) (by decide +kernel) _),
      Cell.marked.split_eq htail]
    rfl
  apply occursIn_body_of_globalCss
  rw [withBody, formatOf_tornBody, Body.share, Body.shareCells, hsplit,
    Pattern.occursIn_eq_any_tails]
  decide +kernel

/-- The snippet can be written again. -/
theorem exists_toSnippet_torn : ∃ m, (tornBlock.withBody tornBody).toSnippet {} = .ok m := by
  have hend : Text.contains SettingsBlock.closing tornYaml = false := by
    decide +kernel
  have hwrite := write?_tornBlock
  rw [← encode_eq_of_bare_eq (bare_withBody tornBlock tornBody)] at hwrite
  exact exists_toSnippet hwrite hend {}

/-- A snippet with cells that is read as one with banners once it has been written. -/
theorem exists_format_changed : ∃ t c m c', ofSnippet t = .ok c ∧ c.ReadsBack ∧
    c.toSnippet {} = .ok m ∧ ofSnippet m = .ok c' ∧
      c.format = some .cell ∧ c'.format = some .asterisk := by
  obtain ⟨m, hm⟩ := exists_toSnippet_torn
  refine ⟨torn, _, m, _, ofSnippet_torn, readsBack_torn, hm,
    ofSnippet_of_readsBack readsBack_torn hm, ?_, ?_⟩
  · rw [withBody, formatOf_tornBody]
  · rw [withBody, Body.formatOf, if_pos (Banner.occursIn_trim (occursIn_body_torn {}))]

/-- Written and read again, the snippet has its CSS with other owners. -/
theorem not_sameOwners_torn : ∃ m c', (tornBlock.withBody tornBody).toSnippet {} = .ok m ∧
    ofSnippet m = .ok c' ∧ ¬ SameOwners (tornBlock.withBody tornBody) c' := by
  obtain ⟨m, hm⟩ := exists_toSnippet_torn
  have hm' := ofSnippet_of_readsBack readsBack_torn hm
  refine ⟨m, _, hm, hm', fun hsame => ?_⟩
  obtain ⟨hbanner, -⟩ := (sameOwners_reopened ofSnippet_torn readsBack_torn hm hm').1.mp hsame
  refine hbanner ?_ (Banner.occursIn_trim (occursIn_body_torn {}))
  rw [withBody, formatOf_tornBody]

end Config

end StyleSnippet
