import StyleSnippet.Proofs.Document.Row
import StyleSnippet.Proofs.Yaml.Equality

/-!
# Snippets with cells, written and read

A config whose body is marked by cells is read back as it was written: each setting gets the CSS
that was written for it, and writing it once more gives the same text. The ids have to be such
that a cell can name them, and no CSS may hold the marks that the body is read by.
-/

set_option autoImplicit false

namespace StyleSnippet

open Text Css

namespace Config

variable {o : WriteOptions} {c : Config} {m : Text}

/-- What the CSS of a config must be for its body to be read by cells as it was written. -/
structure FitsCells (c : Config) : Prop where
  /-- The namespace is an id. -/
  namespaceId : IsId (Text.trim c.id)
  /-- A setting with CSS has an id. -/
  settingId : ∀ s ∈ c.allSettings, s.fragment?.isSome → IsId s.id
  /-- A setting with CSS is the first one with its id. -/
  first : c.allSettings.Pairwise fun s t => t.fragment?.isSome → s.id ≠ t.id
  /-- The CSS of a setting does not hold the end of a cell. -/
  closing : ∀ s ∈ c.allSettings, ∀ css ∈ s.fragment?, ¬ Cell.closing <:+: css
  /-- The global CSS does not hold the start of a cell. -/
  opening : ¬ Cell.opening <:+: c.globalCss
  /-- The global CSS holds no row of a banner. -/
  globalRow : ¬ Banner.HasRow c.globalCss
  /-- The CSS of a setting holds no row of a banner. -/
  settingRow : ∀ s ∈ c.allSettings, ∀ css ∈ s.fragment?, ¬ Banner.HasRow css

namespace FitsCells

/-- Ids make proper classes. -/
theorem confines (h : c.FitsCells) (hformat : c.effectiveFormat = .cell) (o : WriteOptions) :
    c.Confines o := by
  intro s hs hcss
  have hid := h.settingId s hs hcss
  rw [classOf, hformat]
  cases o.cellScope with
  | config => exact IsId.scopeClass h.namespaceId
  | setting => exact IsId.scopeClass (hid.trim_eq.symm ▸ hid)

end FitsCells

/-- The ids of the settings with CSS, each with the CSS that is written for it. -/
def written (o : WriteOptions) (c : Config) : List (Text × Text) :=
  c.allSettings.filterMap fun s => (c.cssOf o s).map fun css => (s.id, css)

/-- The body of a config with cells. -/
theorem bodyParts_eq_cells (hformat : c.effectiveFormat = .cell) (o : WriteOptions) :
    c.bodyParts o = c.globalPart ++ (c.written o).map fun p => Cell.render p.1 p.2 := by
  apply bodyParts_eq
  intro s css
  simp only [fragment, hformat]

namespace FitsCells

/-- What is written for a setting can be read back from a cell. -/
theorem of_mem_written (h : c.FitsCells) (hformat : c.effectiveFormat = .cell) {p : Text × Text}
    (hp : p ∈ c.written o) :
    IsId p.1 ∧ ¬ Cell.closing <:+: p.2 ∧ ¬ Banner.HasRow p.2 ∧ Trimmed p.2 := by
  simp only [written, List.mem_filterMap, Option.map_eq_some_iff] at hp
  obtain ⟨s, hs, css, hcss, rfl⟩ := hp
  have hconf := h.confines hformat o
  obtain ⟨-, htrim⟩ := of_mem_cssOf hconf hs hcss
  simp only [cssOf, Option.map_eq_some_iff] at hcss
  obtain ⟨raw, hraw, rfl⟩ := hcss
  have hsome : s.fragment?.isSome := by simp [hraw]
  have hinert : ¬ Inert '/' := fun hi => hi.not_noted (by decide)
  refine ⟨h.settingId s hs hsome, ?_, ?_, htrim⟩
  · intro hi
    exact h.closing s hs raw hraw
      (infix_of_infix_render (hconf s hs hsome) (by decide) hinert (by decide) (by decide) hi)
  · intro hrow
    exact h.settingRow s hs raw hraw (Banner.hasRow_of_render (hconf s hs hsome) hrow)

/-- The body of a config that fits cells holds no row. -/
theorem not_hasRow_body (h : c.FitsCells) (hformat : c.effectiveFormat = .cell)
    (o : WriteOptions) : ¬ Banner.HasRow (c.body o) := by
  intro hrow
  obtain ⟨t, ht, hr⟩ := Banner.exists_hasRow hrow
  rw [bodyParts_eq_cells hformat, List.mem_append, List.mem_map] at ht
  rcases ht with ht | ⟨p, hp, rfl⟩
  · exact h.globalRow (Banner.hasRow_of_globalPart ht hr)
  · obtain ⟨hid, -, hcss, -⟩ := h.of_mem_written hformat hp
    exact hcss (Banner.hasRow_render_cell hid hr)

/-- The body of a config that fits cells is read as the cells that were written. -/
theorem cells_body (h : c.FitsCells) (hformat : c.effectiveFormat = .cell) (o : WriteOptions) :
    ∃ os rest u, Cell.pattern.split (c.body o) = (os, rest) ∧
      os.flatMap (·.before) ++ rest = c.globalPart.flatten ++ u ∧ Blank u ∧
      os.map Body.cellPiece =
        Setting.piecesOf (fun s _ t => t.id = s.id) (c.cssOf o) c.settings := by
  have hopening : ∀ g ∈ c.globalPart, ¬ Cell.opening <:+: g :=
    fun g hg hi => h.opening (infix_of_infix_globalPart hg (by decide) (by decide) hi)
  have hwritten : ∀ p ∈ c.written o, IsId p.1 ∧ ¬ Cell.closing <:+: p.2 := by
    intro p hp
    obtain ⟨hid, hclosing, -⟩ := h.of_mem_written hformat hp
    exact ⟨hid, hclosing⟩
  obtain ⟨os, rest, u, hsplit, hvalues, hbetween, hu⟩ :=
    Cell.exists_split_intercalate (flatten_globalPart c).1 hopening hwritten
  refine ⟨os, rest, u, ?_, hbetween, hu, ?_⟩
  · rw [body, bodyParts_eq_cells hformat]
    exact hsplit
  have hvalue : os.map Body.cellPiece = (os.map (·.value)).map fun x =>
      { accepts := fun t => t.id = x.id, css := Text.trim x.content } := by
    rw [List.map_map]
    rfl
  have hcontent : ∀ p ∈ c.written o, Text.trim (Cell.around p.1 p.2).content = p.2 := by
    intro p hp
    obtain ⟨-, -, -, htrim⟩ := h.of_mem_written hformat hp
    exact (trim_pad blank_feed blank_feed p.2).trans htrim.trim_eq
  rw [hvalue, hvalues, List.map_map, written, allSettings_eq, List.map_filterMap,
    Setting.piecesOf]
  apply List.filterMap_congr
  intro s hs
  cases hcss : c.cssOf o s with
  | none => rfl
  | some css =>
    have hmem : (s.id, css) ∈ c.written o :=
      List.mem_filterMap.mpr ⟨s, allSettings_eq c ▸ hs, by rw [hcss]; rfl⟩
    simp only [Option.map_some, Function.comp, hcontent _ hmem]
    rfl

/-- The cells of the body are handed out to the settings that they were written for. -/
theorem shareCells_body (h : c.FitsCells) (hformat : c.effectiveFormat = .cell)
    (o : WriteOptions) : Body.shareCells (Setting.formAll c.settings) (c.body o) =
      ⟨Setting.withCssAll (c.cssOf o) c.settings, formatBlock (trim c.globalCss)⟩ := by
  obtain ⟨os, rest, u, hbody, hbetween, hu, hpieces⟩ := h.cells_body hformat o
  have hform : ∀ (s : Setting) (_ : Text), Setting.FormTest fun t => t.id = s.id :=
    fun s _ t => rfl
  have hself : ∀ s ∈ Setting.depthFirstAll c.settings, ∀ css ∈ c.cssOf o s,
      (decide (s.id = s.id)) = true := by
    simp
  have hfirst : (Setting.depthFirstAll c.settings).Pairwise fun s t =>
      ∀ css ∈ c.cssOf o t, (decide (s.id = t.id)) = false := by
    rw [← allSettings_eq]
    apply h.first.imp
    intro s t hst css hcss
    obtain ⟨raw, hraw, -⟩ := Option.map_eq_some_iff.mp hcss
    simpa using hst (by simp [hraw])
  have hleft : (os.flatMap fun x => x.before ++
        if Setting.owned (Setting.formAll c.settings) (Body.cellPiece x) then [] else x.written) =
      os.flatMap (·.before) := by
    apply List.flatMap_congr
    intro x hx
    have hmem : Body.cellPiece x ∈ os.map Body.cellPiece := List.mem_map_of_mem hx
    rw [hpieces] at hmem
    rw [Setting.owned_of_mem_piecesOf hform hself hmem, if_pos rfl, List.append_nil]
  rw [Body.shareCells, hbody, Body.handOutCells_eq, hleft, hpieces,
    Setting.handOut_piecesOf hform hself hfirst]
  simp only [hbetween, trim_append_blank hu, (flatten_globalPart c).2,
    (trimmed_formatBlock _).trim_eq]

/-- A config that fits cells is read back with each piece of CSS as it was written. -/
theorem ofSnippet_eq (h : c.FitsCells) (hformat : c.effectiveFormat = .cell)
    (hreads : c.ReadsBack) (hm : c.toSnippet o = .ok m) : ofSnippet m = .ok (c.rendered o) := by
  have hcell : Body.formatOf (c.body o) = c.effectiveFormat := by
    rw [hformat, Body.formatOf_eq_cell (h.not_hasRow_body hformat o)]
  have hshare : Body.share c.effectiveFormat (Setting.formAll c.settings) (c.body o) =
      ⟨Setting.withCssAll (c.cssOf o) c.settings, formatBlock (trim c.globalCss)⟩ := by
    rw [hformat]
    exact h.shareCells_body hformat o
  exact ofSnippet_eq_rendered (h.confines hformat o) hcell hshare hreads hm

end FitsCells

/-- A config whose body is marked by cells is read back with each piece of CSS as it was written,
and what is read is written as the same text again. -/
theorem ofSnippet_toSnippet_cells (hformat : c.format = none ∨ c.format = some .cell)
    (hfits : c.FitsCells) (hreads : c.ReadsBack) (hm : c.toSnippet o = .ok m) :
    ofSnippet m = .ok (c.rendered o) ∧ (c.rendered o).toSnippet o = .ok m := by
  have hcell : c.effectiveFormat = .cell := by
    rcases hformat with h | h <;> simp [effectiveFormat, h]
  refine ⟨hfits.ofSnippet_eq hcell hreads hm, ?_⟩
  rw [toSnippet_rendered (hfits.confines hcell o), hm]

/-- A config with CSS of a setting, of a setting nested in it, and of no setting. -/
def sampleCells : Config where
  id := "ns"
  settings := [
    { id := "a", title := "A", description := none, kind := .classToggle none none,
      css := some "p,q { color: red }", extra := [],
      nested := [
        { id := "b", title := "B", description := none, kind := .infoText none,
          css := some " .ns i { top: 0 }", nested := [], extra := [] }] }]
  globalCss := "* { margin: 0 }"

/-- The settings block of the sample. -/
def sampleCellsYaml : Text :=
  "id: ns\nsettings:\n- id: a\n  title: A\n  type: class-toggle\n  settings:\n" ++
    "  - id: b\n    title: B\n    type: info-text\n"

/-- The sample is written so. -/
theorem write?_sampleCells : Yaml.write? (Schema.encode sampleCells) = some sampleCellsYaml := by
  decide +kernel

/-- The settings of the sample are read back as they were written. -/
theorem readsBack_sampleCells : sampleCells.ReadsBack := by
  have hread : Yaml.read? (expandTabs (SettingsBlock.inside sampleCellsYaml)) =
      some (Schema.encode sampleCells) := by
    decide +kernel
  exact readsBack_of_read? write?_sampleCells hread rfl

/-- The CSS of the sample can be told apart by cells. -/
theorem fitsCells_sampleCells : sampleCells.FitsCells := by
  have hall : sampleCells.allSettings = Setting.depthFirstAll sampleCells.settings :=
    allSettings_eq _
  have hstars : ∀ s ∈ sampleCells.allSettings, ∀ css ∈ s.fragment?, ¬ "**".toList <:+: css := by
    rw [hall]
    decide +kernel
  refine ⟨by decide +kernel, ?_, ?_, ?_, by decide, ?_, ?_⟩
  · rw [hall]
    decide +kernel
  · rw [hall]
    decide +kernel
  · rw [hall]
    decide +kernel
  · exact Banner.not_hasRow (by decide)
  · exact fun s hs css hcss => Banner.not_hasRow (hstars s hs css hcss)

/-- The sample is written, read back, and written as the same text again. -/
theorem ofSnippet_toSnippet_sampleCells : ∃ m, sampleCells.toSnippet {} = .ok m ∧
    ofSnippet m = .ok (sampleCells.rendered {}) ∧
      (sampleCells.rendered {}).toSnippet {} = .ok m := by
  have hend : Text.contains SettingsBlock.closing sampleCellsYaml = false := by
    decide +kernel
  obtain ⟨m, hm⟩ := exists_toSnippet write?_sampleCells hend {}
  exact ⟨m, hm, ofSnippet_toSnippet_cells (Or.inl rfl) fitsCells_sampleCells
    readsBack_sampleCells hm⟩

end Config

end StyleSnippet
