import StyleSnippet.Proofs.Document.Gathered
import StyleSnippet.Proofs.Document.Rendered
import StyleSnippet.Proofs.Document.Updated
import StyleSnippet.Proofs.Yaml.Equality

/-!
# Adopting a stylesheet

A text without a settings block is adopted as a snippet by writing the fallback config with the text
as its global CSS. The snippet that is written is read as the fallback config again. Its global CSS
may be laid out otherwise, and put together from the pieces that it is cut into, but the ink is the
same: with no settings, nobody takes a piece away.
-/

set_option autoImplicit false

namespace StyleSnippet

open Text

/-! ## Indenting -/

/-- Indenting a stylesheet keeps its ink. -/
theorem Css.ink_formatBlock (t : Text) : ink (formatBlock t) = ink t := by
  have hlines := map_trim_indentLines 0 false fun l hl => (of_mem_inkedLines (t := t) hl).2.1
  calc ink (formatBlock t)
      = (indentLines 0 false (inkedLines t)).flatMap ink := by
        rw [formatBlock_eq, ink_intercalate blank_feed]
    _ = (inkedLines t).flatMap ink := by rw [← flatMap_ink_map_trim, hlines]
    _ = (pieces t).flatMap ink := by
        rw [inkedLines_eq, flatMap_ink_filter, flatMap_ink_map_trim]
    _ = ink t := by rw [← ink_intercalate blank_feed, intercalate_pieces]

/-! ## Sharing out among nobody -/

namespace Body

/-- Where there are no settings, nobody takes a piece. -/
theorem handOut_nil (ps : List Setting.Piece) : Setting.handOut [] ps = [] := by
  induction ps with
  | nil => rfl
  | cons p ps ih => exact ih

/-- A body that is shared out among no settings is all global. -/
theorem ink_globalCss_share_nil (format : BlockFormat) (body : Text) :
    ink (share format [] body).globalCss = ink body := by
  cases format with
  | cell =>
    have howned : ∀ p, Setting.owned [] p = false := fun p => rfl
    have hjoin := Cell.pattern.join_split body
    rw [Pattern.join] at hjoin
    rw [share, shareCells, handOutCells_eq]
    simp only [howned, Bool.false_eq_true, if_false, ink_trim, hjoin]
  | asterisk =>
    have hjoin := Banner.pattern.join_split body
    rw [← passages_written] at hjoin
    have hleft (ps : List Passage) : (handOutPassages [] ps).2 = ps := by
      rw [handOutPassages_eq]
      exact List.filter_eq_self.mpr fun p _ => rfl
    conv_rhs => rw [← hjoin]
    simp only [share, sharePassages, hleft, ink_paragraphs, List.flatMap_cons, ink_trim,
      List.flatMap_map, ink_append, ink_flatMap]

end Body

/-! ## The fallback config -/

namespace Config

variable {c : Config} {o : WriteOptions} {m : Text}

/-- A body brings no settings into a config. -/
theorem settings_withBody_of_nil (h : c.settings = []) (body : Text) :
    (c.withBody body).settings = [] := by
  simp only [withBody, h, Body.share_settings, Body.handOut_nil]

/-- A config without settings is written with its global CSS alone. -/
theorem ink_body_of_settings_nil (h : c.settings = []) : ink (c.body o) = ink c.globalCss := by
  have hparts : c.bodyParts o = c.globalPart := by
    rw [bodyParts, allSettings_eq, h]
    exact List.append_nil _
  calc ink (c.body o)
      = c.globalPart.flatMap ink := by
        rw [body, hparts]
        exact ink_intercalate blank_blankLine _
    _ = ink c.globalPart.flatten := by rw [← List.flatMap_id, ink_flatMap]; rfl
    _ = ink c.globalCss := by rw [(flatten_globalPart c).2, Css.ink_formatBlock, ink_trim]

/-- A config without settings is read from what is written for it with the same ink. -/
theorem ofSnippet_toSnippet_of_settings_nil (h : c.settings = []) (hreads : c.ReadsBack)
    (hm : c.toSnippet o = .ok m) : ∃ css format,
      ofSnippet m = .ok { c with globalCss := css, format := some format } ∧
        ink css = ink c.globalCss := by
  have hnil : c.bare.settings = [] := by rw [bare, h]; rfl
  set body := trim (c.body o) with hbody
  refine ⟨(c.bare.withBody body).globalCss, Body.formatOf body, ?_, ?_⟩
  · have hsettings : (c.bare.withBody body).settings = c.settings := by
      rw [settings_withBody_of_nil hnil, h]
    rw [ofSnippet_of_readsBack hreads hm, ← hbody, ← hsettings]
    rfl
  · rw [withBody, hnil, Body.ink_globalCss_share_nil, hbody, ink_trim, ink_body_of_settings_nil h]

/-- How the fallback config is written. -/
def fallbackYaml : Text := "name: My Style Settings\nid: my-style-settings\nsettings: []\n"

/-- The fallback config is written so. -/
theorem write?_fallback : Yaml.write? (Schema.encode fallback) = some fallbackYaml := by
  decide +kernel

/-- The fallback config is read back as it was written. -/
theorem readsBack_fallback : fallback.ReadsBack := by
  have hread : Yaml.read? (expandTabs (SettingsBlock.inside fallbackYaml)) =
      some (Schema.encode fallback) := by
    decide +kernel
  exact readsBack_of_read? write?_fallback hread rfl

/-- The fallback config is written with any global CSS, and is read again with the same ink. -/
theorem exists_toSnippet_fallback (css : Text) (o : WriteOptions) :
    ∃ m, toSnippet o { fallback with globalCss := css } = .ok m ∧
      ∃ css' format,
        ofSnippet m = .ok { fallback with globalCss := css', format := some format } ∧
          ink css' = ink css := by
  set c : Config := { fallback with globalCss := css } with hc
  have hbare : fallback.bare = c.bare := rfl
  have hwrite : Yaml.write? (Schema.encode c) = some fallbackYaml := by
    rw [← encode_eq_of_bare_eq hbare, write?_fallback]
  obtain ⟨m, hm⟩ := exists_toSnippet hwrite (by decide +kernel) o
  exact ⟨m, hm, ofSnippet_toSnippet_of_settings_nil (c := c) rfl
    (readsBack_fallback.of_bare_eq hbare) hm⟩

end Config

end StyleSnippet
