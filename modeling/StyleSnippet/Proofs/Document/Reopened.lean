import StyleSnippet.Proofs.Document.Sharing
import StyleSnippet.Proofs.Schema.Decoded
import StyleSnippet.Proofs.Yaml.BehindFeed
import StyleSnippet.Proofs.Yaml.Equality
import StyleSnippet.Proofs.Yaml.WrittenEnd

/-!
# The settings of a snippet that is written and read again

The printed settings are trimmed before they are put into the settings block. What was read, then
written, is read again as the same settings just when the trimmed text still says them.
-/

set_option autoImplicit false

namespace StyleSnippet

open Text

namespace Config

variable {o : WriteOptions} {c c' : Config} {t m yaml : Text}

/-! ## Reading a settings block -/

/-- What is read from a snippet stays apart from its fields. -/
theorem apart_of_ofSnippet (h : ofSnippet t = .ok c) : c.Apart := by
  rw [ofSnippet] at h
  split at h
  · simp at h
  · next b _ =>
    cases hyaml : ofYaml b.yaml with
    | error e => simp [hyaml, Except.map] at h
    | ok c₀ =>
      rw [hyaml, Except.map, Except.ok.injEq] at h
      obtain ⟨v, hread, hdecode⟩ := ofYaml_eq_ok.mp hyaml
      have hapart := Schema.apart_of_decode (Yaml.distinct_of_read? hread) hdecode
      rw [← h]
      exact hapart.of_bare_eq (bare_withBody _ _).symm

/-- A written settings block holds no tab. -/
theorem expandTabs_inside (h : Yaml.write? (Schema.encode c) = some yaml) :
    expandTabs (SettingsBlock.inside yaml) = SettingsBlock.inside yaml := by
  apply expandTabs_eq_self
  obtain ⟨v, -, hv⟩ := exists_eq_trimEnd_append yaml
  have htrim : '\t' ∉ trimEnd yaml := by
    intro hmem
    refine Yaml.tab_not_mem_of_write? h ?_
    rw [hv]
    exact List.mem_append_left v hmem
  simp [SettingsBlock.inside, htrim]

/-! ## Reading a snippet again -/

/-- Whether a text is read as a config with the settings of the given one, CSS aside. -/
def KeepsSettings (c : Config) (m : Text) : Prop := ∃ c', ofSnippet m = .ok c' ∧ c'.bare = c.bare

/-- A written snippet keeps the settings just if its settings block, trimmed as it is, comes to the
same settings. -/
theorem keepsSettings_iff (ht : ofSnippet t = .ok c) (hm : c.toSnippet o = .ok m)
    (hyaml : Yaml.write? (Schema.encode c) = some yaml) : c.KeepsSettings m ↔
      ∃ v c', Yaml.read? (SettingsBlock.inside yaml) = some v ∧ Schema.decode v = .ok c' ∧
        Schema.encode c' = Schema.encode c := by
  obtain ⟨yaml', hyaml', hread⟩ := ofSnippet_of_toSnippet hm
  rw [hyaml, Option.some.injEq] at hyaml'
  subst hyaml'
  rw [KeepsSettings, hread]
  constructor
  · rintro ⟨c', hc', hbare⟩
    cases hblock : ofYaml (SettingsBlock.inside yaml) with
    | error e => simp [hblock, Except.map] at hc'
    | ok c₁ =>
      rw [hblock, Except.map, Except.ok.injEq] at hc'
      obtain ⟨v, hv, hdecode⟩ := ofYaml_eq_ok.mp hblock
      rw [expandTabs_inside hyaml] at hv
      refine ⟨v, c₁, hv, hdecode, ?_⟩
      rw [← hc', bare_withBody] at hbare
      exact encode_eq_of_bare_eq hbare
  · rintro ⟨v, c₁, hv, hdecode, hencode⟩
    have hblock : ofYaml (SettingsBlock.inside yaml) = .ok c₁ := by
      rw [ofYaml_eq_ok, expandTabs_inside hyaml]
      exact ⟨v, hv, hdecode⟩
    have hapart := Schema.apart_of_decode (Yaml.distinct_of_read? hv) hdecode
    refine ⟨_, by rw [hblock]; rfl, ?_⟩
    rw [bare_withBody]
    exact bare_eq_of_encode_eq hapart (apart_of_ofSnippet ht) hencode

/-- A snippet that is read, written and read again keeps its settings just when what its settings
block says, trimmed as it is, still comes to the same settings. This is so unless a string is
written last that shows white space at its end.

Of reading and writing YAML it is assumed that what is written for the settings is read back, as it
was written. What is needed besides is proved of the reader and the writer of this library:
* no tab is written, so none is replaced before reading (`Yaml.tab_not_mem_of_write?`);
* trimming takes nothing off the end unless such a string is written last
  (`Yaml.trimEnd_of_write?`);
* a line feed in front of a document is passed over (`Yaml.read?_feed`);
* no two keys of a map that is read are the same (`Yaml.distinct_of_read?`). -/
theorem keepsSettings_reopened (ht : ofSnippet t = .ok c) (hm : c.toSnippet o = .ok m)
    (hyaml : Yaml.write? (Schema.encode c) = some yaml)
    (hread : Yaml.read? yaml = some (Schema.encode c)) :
    (c.KeepsSettings m ↔ ∃ v c', Yaml.read? (SettingsBlock.inside yaml) = some v ∧
      Schema.decode v = .ok c' ∧ Schema.encode c' = Schema.encode c) ∧
    ((∀ s ∈ (Schema.encode c).lastString?, Yaml.KeepsEnd s) → c.KeepsSettings m) := by
  have hiff := keepsSettings_iff ht hm hyaml
  refine ⟨hiff, fun hlast => hiff.mpr ?_⟩
  have hinside : SettingsBlock.inside yaml = '\n' :: yaml := by
    rw [SettingsBlock.inside, Yaml.trimEnd_of_write? hyaml hlast]
  refine ⟨Schema.encode c, c.bare, ?_, decode_encode (apart_of_ofSnippet ht), encode_bare c⟩
  rw [hinside]
  exact Yaml.read?_feed hread

/-! ## A line end that is lost -/

/-- A config whose last string ends in the given text. -/
def endBlock (ending : Text) : Config where
  id := "x"
  settings := [
    { id := "a", title := "A", description := none,
      kind := .variableText (some ('a' :: ending)) none, css := none, nested := [], extra := [] }]

/-- A settings block that says the config with two line ends there, in quotes. -/
def endBlockYaml : Text :=
  "\nid: x\nsettings:\n- id: a\n  title: A\n  type: variable-text\n" ++
    "  default: \"a\\n\\n\"\n"

/-- How the config is written. -/
def endYaml : Text :=
  "id: x\nsettings:\n- id: a\n  title: A\n  type: variable-text\n  default: |+\n    a\n\n"

/-- A snippet with the block and no body. -/
def endSnippet : Text :=
  SettingsBlock.opening ++ endBlockYaml ++ SettingsBlock.closing ++ "\n"

/-- The config with two line ends is written so, whatever its body is. -/
theorem write?_endBlock (body : Text) :
    Yaml.write? (Schema.encode ((endBlock "\n\n").withBody body)) = some endYaml := by
  rw [encode_eq_of_bare_eq (bare_withBody _ body)]
  decide +kernel

/-- What is written for it is read back. -/
theorem read?_endYaml (body : Text) :
    Yaml.read? endYaml = some (Schema.encode ((endBlock "\n\n").withBody body)) := by
  rw [encode_eq_of_bare_eq (bare_withBody _ body)]
  decide +kernel

/-- Trimmed, the written text says a string with one line end only. -/
theorem read?_inside_endYaml :
    Yaml.read? (SettingsBlock.inside endYaml) = some (Schema.encode (endBlock "\n")) := by
  decide +kernel

/-- What the config comes to is the config. -/
theorem decode_endBlock (ending : Text) :
    Schema.decode (Schema.encode (endBlock ending)) = .ok (endBlock ending) :=
  rfl

/-- One line end and two are not the same setting. -/
theorem encode_endBlock_ne (body : Text) :
    Schema.encode (endBlock "\n") ≠ Schema.encode ((endBlock "\n\n").withBody body) := by
  rw [encode_eq_of_bare_eq (bare_withBody _ body)]
  decide +kernel

/-- The snippet is read as the config with two line ends. -/
theorem ofSnippet_endSnippet : ofSnippet endSnippet = .ok ((endBlock "\n\n").withBody []) := by
  have hfind : SettingsBlock.find? endSnippet = some ⟨[], endBlockYaml, ['\n']⟩ := by
    decide +kernel
  have hread : Yaml.read? (expandTabs endBlockYaml) =
      some (Schema.encode (endBlock "\n\n")) := by
    decide +kernel
  have hblock : ofYaml endBlockYaml = .ok (endBlock "\n\n") :=
    ofYaml_eq_ok.mpr ⟨_, hread, decode_endBlock _⟩
  have htrim : trim ['\n'] = [] := by
    decide
  rw [ofSnippet, hfind]
  simp only [hblock, htrim, Except.map]

/-- The config with two line ends can be written, whatever its body is. -/
theorem exists_toSnippet_endBlock (body : Text) :
    ∃ m, ((endBlock "\n\n").withBody body).toSnippet {} = .ok m := by
  have hend : Text.contains SettingsBlock.closing endYaml = false := by
    decide +kernel
  exact exists_toSnippet (write?_endBlock body) hend {}

/-- A snippet whose settings are others once it has been written, although what is printed for
them is read back. -/
theorem exists_settings_changed : ∃ t c yaml m c', ofSnippet t = .ok c ∧
    Yaml.write? (Schema.encode c) = some yaml ∧ Yaml.read? yaml = some (Schema.encode c) ∧
      c.toSnippet {} = .ok m ∧ ofSnippet m = .ok c' ∧ c'.bare ≠ c.bare := by
  obtain ⟨m, hm⟩ := exists_toSnippet_endBlock []
  obtain ⟨yaml, hyaml, hm'⟩ := ofSnippet_of_toSnippet hm
  have heq := hyaml
  rw [write?_endBlock, Option.some.injEq] at heq
  subst heq
  have hblock : ofYaml (SettingsBlock.inside endYaml) = .ok (endBlock "\n") := by
    rw [ofYaml_eq_ok, expandTabs_inside hyaml]
    exact ⟨_, read?_inside_endYaml, decode_endBlock _⟩
  rw [hblock] at hm'
  refine ⟨endSnippet, _, endYaml, m, _, ofSnippet_endSnippet, hyaml, read?_endYaml [], hm, hm', ?_⟩
  rw [bare_withBody]
  exact fun hbare => encode_endBlock_ne [] (encode_eq_of_bare_eq hbare)

/-- Written again, the snippet does not keep its settings. -/
theorem not_keepsSettings_endBlock : ∃ m, ((endBlock "\n\n").withBody []).toSnippet {} = .ok m ∧
    ¬ ((endBlock "\n\n").withBody []).KeepsSettings m := by
  obtain ⟨m, hm⟩ := exists_toSnippet_endBlock []
  refine ⟨m, hm, ?_⟩
  rw [(keepsSettings_reopened ofSnippet_endSnippet hm (write?_endBlock []) (read?_endYaml [])).1]
  rintro ⟨v, c', hv, hdecode, hencode⟩
  rw [read?_inside_endYaml, Option.some.injEq] at hv
  rw [← hv, decode_endBlock, Except.ok.injEq] at hdecode
  rw [← hdecode] at hencode
  exact encode_endBlock_ne [] hencode

end Config

end StyleSnippet
