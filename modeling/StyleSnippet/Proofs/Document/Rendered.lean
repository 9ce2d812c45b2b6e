import StyleSnippet.Proofs.Css.Render
import StyleSnippet.Proofs.Document.Block

/-!
# The CSS that a config is written with

The CSS of each setting is written confined and indented. A config that has it in this form
already is written in the same way, which is what makes a written snippet stay as it is when it is
read and written again.
-/

set_option autoImplicit false

namespace StyleSnippet

open Text Css

variable {o : WriteOptions} {c : Config} {s : Setting}

/-! ## Fragments -/

namespace Setting

/-- The CSS of a setting that is written is trimmed and not empty. -/
theorem of_mem_fragment? {css : Text} (h : css ∈ s.fragment?) : css ≠ [] ∧ Trimmed css := by
  simp only [fragment?, Option.mem_def, Option.filter_eq_some_iff, Option.map_eq_some_iff] at h
  obtain ⟨⟨raw, -, rfl⟩, hne⟩ := h
  exact ⟨by simpa using hne, trimmed_trim raw⟩

/-- CSS that is trimmed and not empty is written as it is. -/
theorem fragment?_eq_css (h : ∀ css ∈ s.css, css ≠ [] ∧ Trimmed css) : s.fragment? = s.css := by
  rw [fragment?]
  cases hcss : s.css with
  | none => rfl
  | some css =>
    obtain ⟨hne, htrim⟩ := h css hcss
    rw [Option.map_some, htrim.trim_eq, Option.filter_some, if_pos (by simpa using hne)]

end Setting

namespace Css

variable {scope css : Text}

/-- CSS that is not blank is not blank once it is rendered. -/
theorem render_ne_nil (hs : ScopeClass scope) (h : ¬ Blank css) : render scope css ≠ [] := by
  rw [render, Ne, formatBlock_eq_nil_iff]
  intro hb
  apply h
  intro d hd
  exact hb d ((insertion_scopeCss hs css).sublist.subset hd)

/-- What is confined and indented is trimmed. -/
theorem trimmed_render (scope css : Text) : Trimmed (render scope css) := trimmed_formatBlock _

/-- A text on one line that starts with no character of a class and holds no point occurs in the
rendered CSS only if it occurs in the CSS. -/
theorem infix_of_infix_render {d : Char} {r : Text} (hs : ScopeClass scope)
    (hd : isBlank d = false) (hinert : ¬ Inert d) (hpoint : '.' ∉ d :: r) (hfeed : '\n' ∉ d :: r)
    (h : d :: r <:+: render scope css) : d :: r <:+: css := by
  have hspace : d ≠ ' ' := by
    rintro rfl
    exact absurd hd (by decide)
  have hscoped := infix_of_infix_formatBlock hd hfeed h
  exact (insertion_scopeCss hs css).infix_inv hs hpoint hspace hinert hscoped

end Css

namespace Config

/-- The settings are visited depth first. -/
theorem allSettings_eq (c : Config) : c.allSettings = Setting.depthFirstAll c.settings := by
  rw [allSettings, Setting.Visit.toList_eq]
  simp [Setting.Visit.start]

/-- The CSS that is written for a setting, if any is. -/
def cssOf (o : WriteOptions) (c : Config) (s : Setting) : Option Text :=
  s.fragment?.map fun css => formatBlock (scopeCss (c.classOf o s) css)

/-- The config that a written snippet is to be read as: each piece of CSS is as it was written. -/
def rendered (o : WriteOptions) (c : Config) : Config :=
  { c with
    settings := Setting.withCssAll (c.cssOf o) c.settings
    globalCss := formatBlock (Text.trim c.globalCss)
    format := some c.effectiveFormat }

/-- Whether the CSS of each setting is confined to a class proper. -/
def Confines (o : WriteOptions) (c : Config) : Prop :=
  ∀ s ∈ c.allSettings, s.fragment?.isSome → ScopeClass (c.classOf o s)

/-- Only CSS changes when a config is rendered. -/
theorem bare_rendered (o : WriteOptions) (c : Config) : (c.rendered o).bare = c.bare := by
  simp [rendered, bare]

/-- The CSS that is written for a setting is trimmed and not empty. -/
theorem of_mem_cssOf (h : c.Confines o) (hs : s ∈ c.allSettings) {css : Text}
    (hcss : css ∈ c.cssOf o s) : css ≠ [] ∧ Trimmed css := by
  simp only [cssOf, Option.mem_def, Option.map_eq_some_iff] at hcss
  obtain ⟨raw, hraw, rfl⟩ := hcss
  obtain ⟨hne, htrim⟩ := Setting.of_mem_fragment? hraw
  have hclass := h s hs (by simp [hraw])
  exact ⟨render_ne_nil hclass (htrim.not_blank hne), trimmed_render _ _⟩

/-- The global CSS, rendered, is written as before. -/
theorem globalPart_rendered (o : WriteOptions) (c : Config) :
    (c.rendered o).globalPart = c.globalPart := by
  have htrim := (trimmed_formatBlock (trim c.globalCss)).trim_eq
  have hnil : formatBlock (trim c.globalCss) = [] ↔ trim c.globalCss = [] := by
    rw [formatBlock_eq_nil_iff, ← trim_eq_nil_iff, trim_trim]
  simp only [globalPart, rendered, htrim, List.isEmpty_iff, hnil, formatBlock_formatBlock]

/-- The global CSS is written as one piece of the body, or not at all if it is blank. -/
theorem flatten_globalPart (c : Config) :
    c.globalPart.length ≤ 1 ∧ c.globalPart.flatten = formatBlock (trim c.globalCss) := by
  rw [globalPart]
  split
  · next h =>
    rw [List.isEmpty_iff] at h
    rw [h]
    exact ⟨by simp, rfl⟩
  · exact ⟨by simp, by simp⟩

/-- The global CSS is written indented, and not at all if it is empty. -/
theorem of_mem_globalPart {t : Text} (h : t ∈ c.globalPart) :
    t ≠ [] ∧ t = formatBlock (trim c.globalCss) := by
  rw [globalPart] at h
  split at h
  · simp at h
  · next hne =>
    rw [List.mem_singleton] at h
    refine ⟨?_, h⟩
    rw [h, Ne, formatBlock_eq_nil_iff, ← trim_eq_nil_iff, trim_trim]
    simpa using hne

/-- What is written of the global CSS holds of marks on one line only those that it holds. -/
theorem infix_of_infix_globalPart {d : Char} {r t : Text} (ht : t ∈ c.globalPart)
    (hd : isBlank d = false) (hfeed : '\n' ∉ d :: r) (h : d :: r <:+: t) :
    d :: r <:+: c.globalCss := by
  rw [(of_mem_globalPart ht).2] at h
  exact (infix_of_infix_formatBlock hd hfeed h).trans (isInfix_trim c.globalCss)

/-- The CSS of a setting is written, with its marks, from a solidus on up to some ink. -/
theorem trimmed_fragment (h : c.Confines o) (hs : s ∈ c.allSettings) {css : Text}
    (hcss : css ∈ s.fragment?) : c.fragment o s css ≠ [] ∧ Trimmed (c.fragment o s css) := by
  have hmem : formatBlock (scopeCss (c.classOf o s) css) ∈ c.cssOf o s := by
    rw [cssOf, Option.mem_def.mp hcss]
    rfl
  obtain ⟨hne, htrim⟩ := of_mem_cssOf h hs hmem
  have hsolidus : ∀ t : Text, t.head? = some '/' → (∀ d ∈ t.getLast?, isBlank d = false) →
      t ≠ [] ∧ Trimmed t := by
    intro t hhead hlast
    refine ⟨?_, ?_, hlast⟩
    · rintro rfl
      simp at hhead
    · intro d hd
      rw [hhead, Option.mem_some_iff] at hd
      rw [← hd]
      decide
  rw [fragment]
  cases c.effectiveFormat with
  | cell =>
    apply hsolidus _ rfl
    intro d hd
    have hclosing : Cell.closing ≠ [] := by decide
    have hlast : Cell.closing.getLast? = some '/' := by decide
    simp only [Cell.render, Cell.written] at hd
    rw [List.getLast?_append_of_ne_nil _ hclosing, hlast, Option.mem_some_iff] at hd
    rw [← hd]
    decide
  | asterisk =>
    apply hsolidus _ rfl
    intro d hd
    simp only [Banner.render] at hd
    rw [List.append_cons, List.getLast?_append_of_ne_nil _ hne] at hd
    exact htrim.last d hd

/-- The body of a config is trimmed. -/
theorem trimmed_body (h : c.Confines o) : Trimmed (c.body o) := by
  apply trimmed_intercalate
  intro t ht
  rw [bodyParts, List.mem_append, List.mem_filterMap] at ht
  rcases ht with ht | ⟨s, hs, hmap⟩
  · obtain ⟨hne, hformat⟩ := of_mem_globalPart ht
    exact ⟨hne, hformat ▸ trimmed_formatBlock _⟩
  · obtain ⟨css, hcss, rfl⟩ := Option.map_eq_some_iff.mp hmap
    exact trimmed_fragment h hs hcss

/-- The body is the global CSS and the marked CSS of each setting, by whatever text of a setting
its marks name it. -/
theorem bodyParts_eq {key : Setting → Text} {mark : Text → Text → Text}
    (hmark : ∀ s css,
      c.fragment o s css = mark (key s) (formatBlock (scopeCss (c.classOf o s) css))) :
    c.bodyParts o = c.globalPart ++ (c.allSettings.filterMap fun s =>
      (c.cssOf o s).map fun css => (key s, css)).map fun p => mark p.1 p.2 := by
  rw [bodyParts, List.map_filterMap]
  congr 1
  apply List.filterMap_congr
  intro s _
  rw [cssOf, Option.map_map, Option.map_map]
  congr 1
  funext css
  exact hmark s css

/-- A config is read back as it was written if its body tells the convention that it is written
in and gives each setting the CSS that was written for it. -/
theorem ofSnippet_eq_rendered {m : Text} (hconf : c.Confines o)
    (hformat : Body.formatOf (c.body o) = c.effectiveFormat)
    (hshare : Body.share c.effectiveFormat (Setting.formAll c.settings) (c.body o) =
      ⟨Setting.withCssAll (c.cssOf o) c.settings, formatBlock (trim c.globalCss)⟩)
    (hreads : c.ReadsBack) (hm : c.toSnippet o = .ok m) : ofSnippet m = .ok (c.rendered o) := by
  rw [ofSnippet_of_readsBack hreads hm, (trimmed_body hconf).trim_eq, withBody, hformat]
  simp only [bare, hshare, rendered]

/-- A setting with rendered CSS is written as before. -/
theorem fragment_rendered (h : c.Confines o) (hs : s ∈ c.allSettings) (nested : List Setting) :
    ({ s with css := c.cssOf o s, nested := nested } : Setting).fragment?.map
        ((c.rendered o).fragment o { s with css := c.cssOf o s, nested := nested }) =
      s.fragment?.map (c.fragment o s) := by
  rw [Setting.fragment?_eq_css fun css hcss => of_mem_cssOf h hs hcss]
  cases hf : s.fragment? with
  | none => simp [cssOf, hf]
  | some css =>
    have hagain := render_render (h s hs (by simp [hf])) css
    have hformat : (c.rendered o).effectiveFormat = c.effectiveFormat := rfl
    have hclass (x : Option Text) :
        (c.rendered o).classOf o { s with css := x, nested := nested } = c.classOf o s := rfl
    have htitle (x : Option Text) :
        ({ s with css := x, nested := nested } : Setting).displayTitle = s.displayTitle := rfl
    rw [render, render] at hagain
    simp only [cssOf, hf, Option.map_some, fragment, hformat, hclass, htitle, hagain]

/-- A config that has been rendered is written with the same body. -/
theorem body_rendered (h : c.Confines o) : (c.rendered o).body o = c.body o := by
  have hall : (c.rendered o).allSettings = c.allSettings.map fun s =>
      { s with css := c.cssOf o s, nested := Setting.withCssAll (c.cssOf o) s.nested } := by
    rw [allSettings_eq, allSettings_eq, rendered, Setting.depthFirstAll_withCssAll]
  rw [body, body, bodyParts, bodyParts, globalPart_rendered, hall, List.filterMap_map]
  congr 2
  apply List.filterMap_congr
  intro s hs
  exact fragment_rendered h hs _

/-- A config that has been rendered is written as the same snippet. -/
theorem toSnippet_rendered (h : c.Confines o) : (c.rendered o).toSnippet o = c.toSnippet o :=
  toSnippet_eq_of_bare_eq (bare_rendered o c) (body_rendered h)

end Config

end StyleSnippet
