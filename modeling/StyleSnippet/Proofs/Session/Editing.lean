import StyleSnippet.Proofs.Document.Adopted
import StyleSnippet.Session.Basic

/-!
# Editing by config

A config is put into the text of a session unless the text has a settings block that cannot be read.
A request that is refused changes nothing.

A text without a settings block is adopted when the config of the session is applied to it: the text
becomes a snippet that says the fallback config, and keeps its ink as the global CSS.
-/

set_option autoImplicit false

namespace StyleSnippet

open Text

namespace Config

/-- What keeps a settings block from being read is never that there is none. -/
theorem isMalformed_of_ofYaml {yaml : Text} {e : ReadError} (h : ofYaml yaml = .error e) :
    e.isMalformed = true := by
  unfold ofYaml at h
  split at h
  · cases h
    rfl
  · next v _ =>
    split at h
    · cases h
      rfl
    · cases hdecode : Schema.decode v with
      | ok c => simp [hdecode, Except.mapError] at h
      | error e' =>
        rw [hdecode] at h
        cases h
        rfl

end Config

namespace Session

variable {σ : Type} {s : Session σ} {c : Config}

/-- The text must not be replaced just if it has a settings block that cannot be read. -/
theorem obstacle?_eq_some {e : ReadError} : s.obstacle? = some e ↔
    ∃ b, SettingsBlock.find? s.content = some b ∧ Config.ofYaml b.yaml = .error e := by
  rw [obstacle?, Config.ofSnippet]
  cases SettingsBlock.find? s.content with
  | none => simp [ReadError.isMalformed]
  | some b =>
    cases hyaml : Config.ofYaml b.yaml with
    | ok c => simp [Except.map, hyaml]
    | error e' =>
      have hmal := Config.isMalformed_of_ofYaml hyaml
      simp [Except.map, hyaml, hmal]

/-- A config is refused for what the text says just if the text must not be replaced. -/
theorem apply_eq_read {e : ReadError} :
    (s.apply c).1 = .error (.read e) ↔ s.obstacle? = some e := by
  rw [apply]
  cases s.obstacle? with
  | some e' => simp
  | none => cases c.updateSnippet s.options s.content <;> simp

/-- A config is applied by replacing the text, if that is allowed and the config can be written. -/
theorem apply_eq_ok_iff {s' : Session σ} : s.apply c = (.ok (), s') ↔
    s.obstacle? = none ∧
      ∃ u, c.updateSnippet s.options s.content = .ok u ∧ s' = s.setContent u := by
  rw [apply]
  cases s.obstacle? with
  | some e => simp
  | none =>
    cases c.updateSnippet s.options s.content with
    | error e => simp
    | ok u => simp [setContent, eq_comm]

/-- A config that is refused changes nothing. -/
theorem apply_of_refused {e : SessionError} (h : (s.apply c).1 = .error e) :
    (s.apply c).2 = s := by
  unfold apply at h ⊢
  split at h
  · rfl
  · split at h
    · rfl
    · cases h

/-! ## Adopting -/

/-- A text without a settings block is all global CSS. -/
theorem config_of_find?_none (h : SettingsBlock.find? s.content = none) :
    s.config = { Config.fallback with globalCss := trim s.content } := by
  simp only [config, Config.ofSnippet, SettingsBlock.bodyOf, h]

/-- A text that can be read has the config that is read from it. -/
theorem config_of_ofSnippet (h : Config.ofSnippet s.content = .ok c) : s.config = c := by
  simp only [config, h]

/-- A text without a settings block is adopted by applying the config of the session, and keeps its
ink as the global CSS. -/
theorem exists_apply_config (h : SettingsBlock.find? s.content = none) :
    ∃ s' css format, s.apply s.config = (.ok (), s') ∧
      Config.ofSnippet s'.content = .ok s'.config ∧
      s'.config = { Config.fallback with globalCss := css, format := some format } ∧
      ink css = ink s.content := by
  obtain ⟨m, hm, css, format, hread, hink⟩ :=
    Config.exists_toSnippet_fallback (trim s.content) s.options
  rw [← config_of_find?_none h] at hm
  have hupdate : s.config.updateSnippet s.options s.content = .ok m := by
    rw [Config.updateSnippet_eq, hm, SettingsBlock.kept, h]
    rfl
  have hobstacle : s.obstacle? = none := by
    refine Option.eq_none_iff_forall_ne_some.mpr fun e he => ?_
    obtain ⟨b, hb, -⟩ := obstacle?_eq_some.mp he
    rw [h] at hb
    cases hb
  have hconfig := config_of_ofSnippet (s := s.setContent m) hread
  refine ⟨s.setContent m, css, format, apply_eq_ok_iff.mpr ⟨hobstacle, m, hupdate, rfl⟩, ?_,
    hconfig, ?_⟩
  · rw [hconfig]
    exact hread
  · rw [hink, ink_trim]

/-- Editing by config is safe. A config is refused for what the text says just if the text has a
settings block that cannot be read; when it is refused, for whatever reason, the session stays as it
was; and otherwise it comes to stand in the text, and nothing else changes. A text without a
settings block is adopted with all its ink. -/
theorem apply_safe (s : Session σ) (c : Config) :
    (∀ e, (s.apply c).1 = .error (.read e) ↔
      ∃ b, SettingsBlock.find? s.content = some b ∧ Config.ofYaml b.yaml = .error e) ∧
    (∀ e, (s.apply c).1 = .error (.read e) → e.isMalformed) ∧
    (∀ e, (s.apply c).1 = .error e → (s.apply c).2 = s) ∧
    (∀ s', s.apply c = (.ok (), s') ↔ (∀ e, (s.apply c).1 ≠ .error (.read e)) ∧
      ∃ u, c.updateSnippet s.options s.content = .ok u ∧ s' = s.setContent u) ∧
    (SettingsBlock.find? s.content = none → ∃ s' css format, s.apply s.config = (.ok (), s') ∧
      Config.ofSnippet s'.content = .ok s'.config ∧
      s'.config = { Config.fallback with globalCss := css, format := some format } ∧
      ink css = ink s.content) := by
  refine ⟨fun e => apply_eq_read.trans obstacle?_eq_some, fun e he => ?_,
    fun e => apply_of_refused, fun s' => ?_, exists_apply_config⟩
  · obtain ⟨b, -, hyaml⟩ := obstacle?_eq_some.mp (apply_eq_read.mp he)
    exact Config.isMalformed_of_ofYaml hyaml
  · rw [apply_eq_ok_iff, Option.eq_none_iff_forall_ne_some]
    simp only [ne_eq, apply_eq_read]

/-- A text with a cell and a banner in it, and a settings block that does not end. -/
def adoptedText : Text :=
  "/* @cell: a */\n.a\x7b\x7d\n/* @cell-end */ b /********************/ \n" ++
    "/* t */ \n/********************/ c\n\n /* @settings\nid: x"

/-- A session for such a text, whatever it is stored in. -/
def adoptedSession : Session Unit :=
  { store := (), name := none, content := adoptedText, options := {} }

/-- The whole of such a text is adopted, a settings block that does not end included. -/
theorem apply_safe_adopted : SettingsBlock.find? adoptedText = none ∧
    ∃ s' css format, adoptedSession.apply adoptedSession.config = (.ok (), s') ∧
      Config.ofSnippet s'.content = .ok s'.config ∧
      s'.config = { Config.fallback with globalCss := css, format := some format } ∧
      ink css = ink adoptedText := by
  have hnone : SettingsBlock.find? adoptedText = none := by decide +kernel
  exact ⟨hnone, (apply_safe adoptedSession Config.fallback).2.2.2.2 hnone⟩

end Session

end StyleSnippet
