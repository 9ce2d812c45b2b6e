import StyleSnippet.Proofs.Document.BannerBody
import StyleSnippet.Proofs.Document.CellRoundTrip

/-!
# Snippets with banners, written and read

A config whose body is marked by banners is read back as it was written, whatever the titles of
its settings and however wide the rows are: each setting gets the CSS that was written for it, and
writing it once more gives the same text. The CSS has to tell by the ids that it mentions whose it
is.
-/

set_option autoImplicit false

namespace StyleSnippet

open Text Css Banner

namespace Config

variable {o : WriteOptions} {c : Config} {m : Text}

/-- What the CSS of a config must be for its body to be read by banners as it was written. -/
structure FitsBanners (o : WriteOptions) (c : Config) : Prop where
  /-- Some setting has CSS. -/
  nonempty : ∃ s ∈ c.allSettings, s.fragment?.isSome
  /-- No heading has CSS. -/
  kind : ∀ s ∈ c.allSettings, s.fragment?.isSome → s.isHeading = false
  /-- A setting with CSS has an id. -/
  settingId : ∀ s ∈ c.allSettings, s.fragment?.isSome → IsId s.id
  /-- The CSS that is written for a setting mentions its id. -/
  mentioned : ∀ s ∈ c.allSettings, ∀ css ∈ c.cssOf o s, mentionsId s.id css = true
  /-- The CSS that is written for a setting mentions the id of no setting before it, headings
  aside. -/
  first : c.allSettings.Pairwise fun s t =>
    s.isHeading = false → ∀ css ∈ c.cssOf o t, mentionsId s.id css = false
  /-- The global CSS holds no row of a banner. -/
  globalRow : ¬ HasRow c.globalCss
  /-- The CSS of a setting holds no row of a banner. -/
  settingRow : ∀ s ∈ c.allSettings, ∀ css ∈ s.fragment?, ¬ HasRow css

/-- In a body with banners, the CSS of a setting is confined to the id of the setting. -/
theorem classOf_banner (hformat : c.effectiveFormat = .asterisk) (o : WriteOptions)
    (s : Setting) : c.classOf o s = Css.scopeClass s.id := by
  rw [classOf, hformat]

namespace FitsBanners

/-- The CSS of each setting is confined to a class proper. -/
theorem confines (h : c.FitsBanners o) (hformat : c.effectiveFormat = .asterisk) :
    c.Confines o := by
  intro s hs hcss
  have hid := h.settingId s hs hcss
  rw [classOf_banner hformat]
  exact IsId.scopeClass (hid.trim_eq.symm ▸ hid)

end FitsBanners

/-- The titles of the settings with CSS, each with the CSS that is written for it. -/
def titled (o : WriteOptions) (c : Config) : List (Text × Text) :=
  c.allSettings.filterMap fun s => (c.cssOf o s).map fun css => (s.displayTitle, css)

/-- The body of a config with banners. -/
theorem bodyParts_eq_banners (hformat : c.effectiveFormat = .asterisk) (o : WriteOptions) :
    c.bodyParts o =
      c.globalPart ++ (c.titled o).map fun p => Banner.render o.rowStars p.1 p.2 := by
  apply bodyParts_eq
  intro s css
  simp only [fragment, hformat]

namespace FitsBanners

/-- What is written for a setting can be read back from behind a banner. -/
theorem of_mem_titled (h : c.FitsBanners o) (hformat : c.effectiveFormat = .asterisk)
    {p : Text × Text} (hp : p ∈ c.titled o) : ¬ HasRow p.2 ∧ p.2 ≠ [] ∧ Trimmed p.2 := by
  simp only [titled, List.mem_filterMap, Option.map_eq_some_iff] at hp
  obtain ⟨s, hs, css, hcss, rfl⟩ := hp
  have hconf := h.confines hformat
  obtain ⟨hne, htrim⟩ := of_mem_cssOf hconf hs hcss
  simp only [cssOf, Option.map_eq_some_iff] at hcss
  obtain ⟨raw, hraw, rfl⟩ := hcss
  have hsome : s.fragment?.isSome := by simp [hraw]
  exact ⟨fun hrow => h.settingRow s hs raw hraw (hasRow_of_render (hconf s hs hsome) hrow), hne,
    htrim⟩

/-- The body of a config that fits banners is read as the passages that were written. -/
theorem passages_body (h : c.FitsBanners o) (hformat : c.effectiveFormat = .asterisk) :
    ∃ u qs, Body.passages (pattern.split (c.body o)) = (formatBlock (trim c.globalCss) ++ u, qs) ∧
      Blank u ∧ qs.map Body.passagePiece =
        Setting.piecesOf (fun _ css t => Body.owns css t) (c.cssOf o) c.settings := by
  have hglobal : ∀ g ∈ c.globalPart, ¬ HasRow g :=
    fun g hg hrow => h.globalRow (hasRow_of_globalPart hg hrow)
  obtain ⟨u, qs, hsplit, hu, hqs⟩ := Body.passages_intercalate o.rowStars
    (flatten_globalPart c).1 hglobal fun p hp => (h.of_mem_titled hformat hp).1
  refine ⟨u, qs, ?_, hu, ?_⟩
  · rw [body, bodyParts_eq_banners hformat, ← (flatten_globalPart c).2]
    exact hsplit
  · rw [Body.map_passagePiece (fun p hp => (h.of_mem_titled hformat hp).2) hqs, titled,
      allSettings_eq, List.map_filterMap, Setting.piecesOf]
    apply List.filterMap_congr
    intro s _
    cases c.cssOf o s <;> rfl

/-- The CSS that is written for a setting has that setting for its first owner. -/
theorem owns_first (h : c.FitsBanners o) :
    (∀ s ∈ c.allSettings, ∀ css ∈ c.cssOf o s, Body.owns css s = true) ∧
      c.allSettings.Pairwise fun s t => ∀ css ∈ c.cssOf o t, Body.owns css s = false := by
  refine ⟨?_, ?_⟩
  · intro s hs css hcss
    have hsome : s.fragment?.isSome := by
      obtain ⟨raw, hraw, -⟩ := Option.map_eq_some_iff.mp hcss
      simp [hraw]
    simp [Body.owns, h.kind s hs hsome, h.mentioned s hs css hcss]
  · apply h.first.imp
    intro s t hst css hcss
    by_cases hheading : s.isHeading = false
    · simp [Body.owns, hst hheading css hcss]
    · simp [Body.owns, hheading]

/-- The passages of the body are handed out to the settings that they were written for. -/
theorem sharePassages_body (h : c.FitsBanners o) (hformat : c.effectiveFormat = .asterisk) :
    Body.sharePassages (Setting.formAll c.settings) (c.body o) =
      ⟨Setting.withCssAll (c.cssOf o) c.settings, formatBlock (trim c.globalCss)⟩ := by
  obtain ⟨u, qs, hsplit, hu, hpieces⟩ := h.passages_body hformat
  obtain ⟨hself, hfirst⟩ := h.owns_first
  rw [allSettings_eq] at hself hfirst
  have hform : ∀ (_ : Setting) (css : Text), Setting.FormTest fun t => Body.owns css t :=
    fun _ css t => rfl
  have hleft : (qs.filter fun q =>
      !Setting.owned (Setting.formAll c.settings) (Body.passagePiece q)) = [] := by
    rw [List.filter_eq_nil_iff]
    intro q hq
    have hmem : Body.passagePiece q ∈ qs.map Body.passagePiece := List.mem_map_of_mem hq
    rw [hpieces] at hmem
    simp [Setting.owned_of_mem_piecesOf hform hself hmem]
  rw [Body.sharePassages, hsplit]
  simp only [Body.handOutPassages_eq, hleft, hpieces,
    Setting.handOut_piecesOf hform hself hfirst, trim_append_blank hu,
    (trimmed_formatBlock _).trim_eq, List.map_nil]
  congr 1
  rw [Body.paragraphs]
  by_cases hnil : formatBlock (trim c.globalCss) = []
  · rw [hnil]
    rfl
  · rw [List.filter_cons_of_pos (by simpa using hnil), List.filter_nil, List.intercalate_singleton]

/-- The body of a config that fits banners keeps to the convention of banners. -/
theorem formatOf_body (h : c.FitsBanners o) (hformat : c.effectiveFormat = .asterisk) :
    Body.formatOf (c.body o) = .asterisk := by
  obtain ⟨u, qs, hsplit, -, hpieces⟩ := h.passages_body hformat
  rw [Body.formatOf, if_pos]
  rw [Pattern.occursIn]
  cases hos : pattern.split (c.body o) with
  | mk os rest =>
    cases os with
    | cons x os => rfl
    | nil =>
      exfalso
      rw [hos, Body.passages, Prod.mk.injEq] at hsplit
      rw [← hsplit.2, List.map_nil] at hpieces
      obtain ⟨s, hs, hsome⟩ := h.nonempty
      obtain ⟨css, hcss⟩ := Option.isSome_iff_exists.mp hsome
      have hnone := List.filterMap_eq_nil_iff.mp hpieces.symm s (allSettings_eq c ▸ hs)
      simp [cssOf, hcss] at hnone

/-- A config that fits banners is read back with each piece of CSS as it was written. -/
theorem ofSnippet_eq (h : c.FitsBanners o) (hformat : c.effectiveFormat = .asterisk)
    (hreads : c.ReadsBack) (hm : c.toSnippet o = .ok m) : ofSnippet m = .ok (c.rendered o) := by
  have hshare : Body.share c.effectiveFormat (Setting.formAll c.settings) (c.body o) =
      ⟨Setting.withCssAll (c.cssOf o) c.settings, formatBlock (trim c.globalCss)⟩ := by
    rw [hformat]
    exact h.sharePassages_body hformat
  exact ofSnippet_eq_rendered (h.confines hformat) ((h.formatOf_body hformat).trans hformat.symm)
    hshare hreads hm

end FitsBanners

/-- A config whose body is marked by banners is read back with each piece of CSS as it was
written, and what is read is written as the same text again. -/
theorem ofSnippet_toSnippet_banners (hformat : c.format = some .asterisk)
    (hfits : c.FitsBanners o) (hreads : c.ReadsBack) (hm : c.toSnippet o = .ok m) :
    ofSnippet m = .ok (c.rendered o) ∧ (c.rendered o).toSnippet o = .ok m := by
  have hasterisk : c.effectiveFormat = .asterisk := by simp [effectiveFormat, hformat]
  refine ⟨hfits.ofSnippet_eq hasterisk hreads hm, ?_⟩
  rw [toSnippet_rendered (hfits.confines hasterisk), hm]

/-- A config with CSS of a setting in a heading, whose title takes two lines. -/
def sampleBanners : Config where
  id := "ns"
  settings := [
    { id := "h", title := "Colors", description := none,
      kind := .heading SettingKind.plainLevel none, css := none, extra := [],
      nested := [
        { id := "a", title := "** A\nB", description := none, kind := .classToggle none none,
          css := some "p,.a q { color: red }", nested := [], extra := [] }] }]
  globalCss := "* { margin: 0 }"
  format := some .asterisk

/-- The settings block of the sample. -/
def sampleBannersYaml : Text :=
  "id: ns\nsettings:\n- id: h\n  title: Colors\n  type: heading\n  level: 1\n  settings:\n" ++
    "  - id: a\n    title: |-\n      ** A\n      B\n    type: class-toggle\n"

/-- The sample is written so. -/
theorem write?_sampleBanners :
    Yaml.write? (Schema.encode sampleBanners) = some sampleBannersYaml := by
  decide +kernel

/-- The settings of the sample are read back as they were written. -/
theorem readsBack_sampleBanners : sampleBanners.ReadsBack := by
  have hread : Yaml.read? (expandTabs (SettingsBlock.inside sampleBannersYaml)) =
      some (Schema.encode sampleBanners) := by
    decide +kernel
  exact readsBack_of_read? write?_sampleBanners hread rfl

/-- The CSS of the sample can be told apart by banners. -/
theorem fitsBanners_sampleBanners : sampleBanners.FitsBanners {} := by
  have hall : sampleBanners.allSettings = Setting.depthFirstAll sampleBanners.settings :=
    allSettings_eq _
  have hstars : ∀ s ∈ sampleBanners.allSettings, ∀ css ∈ s.fragment?,
      ¬ "**".toList <:+: css := by
    rw [hall]
    decide +kernel
  refine ⟨?_, ?_, ?_, ?_, ?_, ?_, ?_⟩
  · rw [hall]
    decide +kernel
  · rw [hall]
    decide +kernel
  · rw [hall]
    decide +kernel
  · rw [hall]
    decide +kernel
  · rw [hall]
    decide +kernel
  · exact not_hasRow (by decide)
  · exact fun s hs css hcss => not_hasRow (hstars s hs css hcss)

/-- The sample is written, read back, and written as the same text again. -/
theorem ofSnippet_toSnippet_sampleBanners : ∃ m, sampleBanners.toSnippet {} = .ok m ∧
    ofSnippet m = .ok (sampleBanners.rendered {}) ∧
      (sampleBanners.rendered {}).toSnippet {} = .ok m := by
  have hend : Text.contains SettingsBlock.closing sampleBannersYaml = false := by
    decide +kernel
  obtain ⟨m, hm⟩ := exists_toSnippet write?_sampleBanners hend {}
  exact ⟨m, hm, ofSnippet_toSnippet_banners rfl fitsBanners_sampleBanners
    readsBack_sampleBanners hm⟩

end Config

end StyleSnippet
