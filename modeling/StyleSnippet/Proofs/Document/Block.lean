import StyleSnippet.Document.Read
import StyleSnippet.Document.Write
import StyleSnippet.Proofs.Settings.Forest
import StyleSnippet.Proofs.Text.Search
import StyleSnippet.Proofs.Text.Trim

/-!
# The settings block of a written snippet

A config is written with its settings block in front. The block ends where it was written to end,
since the printed settings hold no end of a comment, so a written snippet is read as what its
block says, with the written body shared out.

CSS is no part of the settings block: configs that differ in their CSS only have the same one.
-/

set_option autoImplicit false

namespace StyleSnippet

open Text

variable {o : WriteOptions} {c c' : Config} {m : Text}

/-! ## What the block says -/

namespace Schema

/-- What is written for a setting: its fields, what was kept of it beside them, and the settings
nested in it if there are any. -/
theorem encodeSetting_eq (s : Setting) : encodeSetting s =
    let entries := (encodeFields s.id s.title s.description s.kind).insertAll s.extra
    .map (if s.nested = [] then entries
      else entries.insert (.string "settings") (.list (encodeSettings s.nested))) := by
  obtain ⟨id, title, description, kind, css, nested, extra⟩ := s
  cases nested with
  | nil => rfl
  | cons s rest => rfl

/-- CSS is not written into the settings block. -/
theorem encodeSettings_formAll (settings : List Setting) :
    encodeSettings (Setting.formAll settings) = encodeSettings settings := by
  induction settings using Setting.forest_induction with
  | nil => rfl
  | cons s rest ihn ihr =>
    have hnil : Setting.formAll s.nested = [] ↔ s.nested = [] := by
      cases s.nested <;> simp
    rw [Setting.formAll_cons, encodeSettings, encodeSettings, ihr, encodeSetting_eq,
      encodeSetting_eq]
    simp only [hnil, ihn]

end Schema

namespace Config

/-- A config without any CSS. -/
def bare (c : Config) : Config :=
  { c with settings := Setting.formAll c.settings, globalCss := [], format := none }

/-- The settings block says nothing of the CSS. -/
@[simp] theorem encode_bare (c : Config) : Schema.encode c.bare = Schema.encode c := by
  simp only [Schema.encode, bare, Schema.encodeSettings_formAll]

/-- Configs that are the same without their CSS have the same settings block. -/
theorem encode_eq_of_bare_eq (h : c.bare = c'.bare) : Schema.encode c = Schema.encode c' := by
  rw [← encode_bare c, h, encode_bare]

end Config

/-! ## Where the block ends -/

namespace SettingsBlock

/-- A settings block is found where its opening first occurs, and ends where its closing first
occurs behind that. -/
theorem find?_eq_some {t : Text} {b : SettingsBlock} : find? t = some b ↔
    ∃ inside, Text.cutFirst? opening t = some (b.before, inside) ∧
      Text.cutFirst? closing inside = some (b.yaml, b.after) := by
  simp only [find?, Option.bind_eq_bind, Option.bind_eq_some_iff, Option.pure_def,
    Option.some.injEq, Prod.exists]
  constructor
  · rintro ⟨before, inside, hopen, yaml, after, hclose, rfl⟩
    exact ⟨inside, hopen, hclose⟩
  · rintro ⟨inside, hopen, hclose⟩
    exact ⟨b.before, inside, hopen, b.yaml, b.after, hclose, rfl⟩

/-- What stands between the marks of the settings block that is written with a printed text. -/
def inside (yaml : Text) : Text := '\n' :: (trimEnd yaml ++ ['\n'])

/-- A written block is found where it was written. -/
theorem find?_written {yaml : Text} (hyaml : ¬ closing <:+: yaml) (after : Text) :
    find? (opening ++ inside yaml ++ closing ++ after) = some ⟨[], inside yaml, after⟩ := by
  have hopen : Text.cutFirst? opening (opening ++ (inside yaml ++ closing ++ after)) =
      some ([], inside yaml ++ closing ++ after) :=
    cutFirst?_eq (n := opening) (s := []) (by decide) (by decide) _
  have hclose : Text.cutFirst? closing (inside yaml ++ closing ++ after) =
      some (inside yaml, after) := by
    apply cutFirst?_eq (by decide)
    have hfeed : '\n' ∉ closing := by decide
    have hcons : inside yaml ++ closing.dropLast =
        [] ++ '\n' :: (trimEnd yaml ++ '\n' :: closing.dropLast) := by
      simp [inside]
    rw [hcons, infix_append_cons hfeed, infix_append_cons hfeed]
    obtain ⟨u, -, hu⟩ := exists_eq_trimEnd_append yaml
    rintro (h | h | h)
    · exact absurd h (by decide)
    · exact hyaml (h.trans ⟨[], u, by simpa using hu.symm⟩)
    · exact absurd h (by decide)
  have hassoc : opening ++ inside yaml ++ closing ++ after =
      opening ++ (inside yaml ++ closing ++ after) := by
    simp only [List.append_assoc]
  rw [hassoc]
  exact find?_eq_some.mpr ⟨_, hopen, hclose⟩

end SettingsBlock

/-! ## A written snippet is read -/

namespace Config

/-- A settings block is read as a config just if its text is read as a value that says it. -/
theorem ofYaml_eq_ok {t : Text} : ofYaml t = .ok c ↔
    ∃ v, Yaml.read? (expandTabs t) = some v ∧ Schema.decode v = .ok c := by
  rw [ofYaml]
  cases hread : Yaml.read? (expandTabs t) with
  | none => simp
  | some v =>
    simp only [Option.some.injEq, exists_eq_left']
    split
    · next hnull => simp [Schema.decode, Yaml.Value.entries?, hnull]
    · cases Schema.decode v <;> simp [Except.mapError]

/-- Whether the settings block that is written for a config says the config again. -/
def ReadsBack (c : Config) : Prop :=
  ∀ yaml, Yaml.write? (Schema.encode c) = some yaml →
    ofYaml (SettingsBlock.inside yaml) = .ok c.bare

/-- A config is said again if the value that is written for it is read and says it. -/
theorem readsBack_of_read? {yaml : Text} (hwrite : Yaml.write? (Schema.encode c) = some yaml)
    (hread : Yaml.read? (expandTabs (SettingsBlock.inside yaml)) = some (Schema.encode c))
    (hdecode : Schema.decode (Schema.encode c) = .ok c.bare) : c.ReadsBack := by
  intro yaml' hyaml
  rw [hwrite, Option.some.injEq] at hyaml
  rw [← hyaml]
  exact ofYaml_eq_ok.mpr ⟨_, hread, hdecode⟩

/-- CSS has no part in whether a config is said again. -/
theorem ReadsBack.of_bare_eq (h : c.ReadsBack) (hbare : c.bare = c'.bare) : c'.ReadsBack := by
  intro yaml hyaml
  rw [← hbare]
  exact h yaml (encode_eq_of_bare_eq hbare ▸ hyaml)

/-- A config is written if its settings are printed without the end of a comment. -/
theorem exists_toSnippet {yaml : Text} (hwrite : Yaml.write? (Schema.encode c) = some yaml)
    (hend : Text.contains SettingsBlock.closing yaml = false) (o : WriteOptions) :
    ∃ m, c.toSnippet o = .ok m := by
  simp only [toSnippet, settingsBlock, hwrite, hend, Except.map, Bool.false_eq_true, if_false]
  exact ⟨_, rfl⟩

/-- Behind the settings block of a written snippet stands what is written without one. -/
theorem snippetText_eq (block body : Text) :
    snippetText block body = block ++ snippetText [] body := by
  rw [snippetText, snippetText]
  split
  · rfl
  · simp only [List.append_assoc, List.nil_append]

/-- Behind the settings block of a written snippet stands the body, white space aside. -/
theorem trim_snippetText (body : Text) : trim (snippetText [] body) = trim body := by
  have hlead : Blank "\n\n".toList := blank_append (s := ['\n']).mpr ⟨blank_feed, blank_feed⟩
  rw [snippetText]
  split
  · next hempty =>
    rw [List.isEmpty_iff.mp hempty]
    exact trim_append_blank blank_feed []
  · rw [trim_append_blank blank_feed, List.nil_append, trim_blank_append hlead]

/-- The settings block of a config is its settings, printed and trimmed, between the two marks. -/
theorem settingsBlock_eq_ok {block : Text} : c.settingsBlock = .ok block ↔
    ∃ yaml, Yaml.write? (Schema.encode c) = some yaml ∧ ¬ SettingsBlock.closing <:+: yaml ∧
      block = SettingsBlock.opening ++ SettingsBlock.inside yaml ++ SettingsBlock.closing := by
  rw [settingsBlock]
  cases Yaml.write? (Schema.encode c) with
  | none => simp
  | some yaml =>
    have hmarks : SettingsBlock.opening ++
        '\n' :: (trimEnd yaml ++ '\n' :: SettingsBlock.closing) =
        SettingsBlock.opening ++ SettingsBlock.inside yaml ++ SettingsBlock.closing := by
      simp [SettingsBlock.inside]
    simp only [Option.some.injEq, exists_eq_left', hmarks]
    split
    · next hend => simp [contains_iff.mp hend]
    · next hend => simp [contains_iff.not.mp hend, eq_comm]

/-- A written snippet is its settings block and its body. -/
theorem toSnippet_eq_ok : c.toSnippet o = .ok m ↔
    ∃ block, c.settingsBlock = .ok block ∧ m = snippetText block (c.body o) := by
  rw [toSnippet]
  cases c.settingsBlock with
  | error e => simp [Except.map]
  | ok block => simp [Except.map, eq_comm]

/-- A written snippet is read as what its settings block says, with the written body shared
out. -/
theorem ofSnippet_of_toSnippet (h : c.toSnippet o = .ok m) :
    ∃ yaml, Yaml.write? (Schema.encode c) = some yaml ∧
      ofSnippet m = (ofYaml (SettingsBlock.inside yaml)).map (·.withBody (trim (c.body o))) := by
  obtain ⟨block, hblock, rfl⟩ := toSnippet_eq_ok.mp h
  obtain ⟨yaml, hyaml, hend, rfl⟩ := settingsBlock_eq_ok.mp hblock
  refine ⟨yaml, hyaml, ?_⟩
  rw [snippetText_eq, ofSnippet, SettingsBlock.find?_written hend]
  simp only [trim_snippetText]

/-- A config whose settings block says it again is read again with the body that is written. -/
theorem ofSnippet_of_readsBack (hreads : c.ReadsBack) (hm : c.toSnippet o = .ok m) :
    ofSnippet m = .ok (c.bare.withBody (trim (c.body o))) := by
  obtain ⟨yaml, hyaml, hread⟩ := ofSnippet_of_toSnippet hm
  rw [hread, hreads yaml hyaml]
  rfl

/-- Configs that are the same without their CSS are written with the same settings block. -/
theorem toSnippet_eq_of_bare_eq (hbare : c.bare = c'.bare) (hbody : c.body o = c'.body o) :
    c.toSnippet o = c'.toSnippet o := by
  rw [toSnippet, toSnippet, settingsBlock, settingsBlock, encode_eq_of_bare_eq hbare, hbody]

end Config

end StyleSnippet
