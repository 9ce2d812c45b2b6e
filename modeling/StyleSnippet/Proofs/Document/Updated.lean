import StyleSnippet.Proofs.Document.Block

/-!
# A snippet put in the place of another one

A config is put into a text in the place of the snippet that the text holds. What stands in front
of the old settings block is kept, white space at its end aside, and all else is written anew.

No settings block opens in the kept text, nor where it meets the new block, so the block that is
found in the new text is the one that was written. Hence the new text is read as the snippet that
was written, and putting yet another config into it is the same as putting that one into the old
text.
-/

set_option autoImplicit false

namespace StyleSnippet

open Text

/-! ## The text in front of a settings block -/

namespace SettingsBlock

variable {b : SettingsBlock} {s t : Text}

/-- No settings block opens in front of the one that is found, nor on the way into it. -/
theorem not_opening_before (h : find? t = some b) :
    ¬ opening <:+: b.before ++ opening.dropLast := by
  obtain ⟨inside, hopen, -⟩ := find?_eq_some.mp h
  exact ((cutFirst?_eq_some_iff (by decide)).mp hopen).2

/-- A block at the start of a text is the one that is found behind a text in which none opens. -/
theorem find?_append (hs : ¬ opening <:+: s ++ opening.dropLast) (hb : find? t = some b)
    (hfront : b.before = []) : find? (s ++ t) = some { b with before := s } := by
  obtain ⟨inside, hopen, hclose⟩ := find?_eq_some.mp hb
  refine find?_eq_some.mpr ⟨inside, ?_, hclose⟩
  rw [hfront] at hopen
  rw [eq_of_cutFirst? hopen, List.nil_append, ← List.append_assoc]
  exact cutFirst?_eq (by decide) hs inside

/-- What a text keeps in front of a new settings block: the text in front of the old one, with a
blank line in the place of the white space at its end. -/
def kept (old : Text) : Text :=
  match find? old with
  | some b => if b.before.isEmpty then [] else trimEnd b.before ++ "\n\n"
  | none => []

/-- What is kept is nothing, or a text and a blank line. The text does not end in white space, and
no settings block opens in it. -/
theorem kept_cases (old : Text) : kept old = [] ∨
    ∃ lead, kept old = lead ++ "\n\n".toList ∧ trimEnd lead = lead ∧ ¬ opening <:+: lead := by
  rw [kept]
  split
  · next b hb =>
    split
    · exact Or.inl rfl
    · refine Or.inr ⟨trimEnd b.before, rfl, trimEnd_eq_self (last_trimEnd _), ?_⟩
      obtain ⟨v, -, hv⟩ := exists_eq_trimEnd_append b.before
      intro hi
      apply not_opening_before hb
      rw [hv, List.append_assoc]
      exact hi.trans (List.prefix_append _ _).isInfix
  · exact Or.inl rfl

/-- No settings block opens in the kept text, nor on the way into the next block: an opening has
no line feed. -/
theorem not_opening_kept (old : Text) : ¬ opening <:+: kept old ++ opening.dropLast := by
  rcases kept_cases old with h | ⟨lead, h, -, hlead⟩
  · rw [h]
    decide
  · have hfeed : '\n' ∉ opening := by decide
    have hsplit : kept old ++ opening.dropLast = lead ++ '\n' :: '\n' :: opening.dropLast := by
      simp [h]
    rw [hsplit, infix_append_cons hfeed]
    rintro (hi | hi)
    · exact hlead hi
    · exact absurd hi (by decide)

/-- The kept text is kept again. -/
theorem kept_append (hb : find? t = some b) (hfront : b.before = []) (old : Text) :
    kept (kept old ++ t) = kept old := by
  rw [kept, find?_append (not_opening_kept old) hb hfront]
  rcases kept_cases old with h | ⟨lead, h, htrim, -⟩
  · simp [h]
  · have hblank : Blank "\n\n".toList := by
      simp only [Blank]
      decide
    simp only [h]
    rw [trimEnd_append_blank hblank, htrim]
    simp

/-- The text in front of the old block is kept, white space at its end aside. -/
theorem trimEnd_before_prefix_kept (hb : find? t = some b) : trimEnd b.before <+: kept t := by
  rw [kept, hb]
  simp only
  split
  · next hempty =>
    rw [List.isEmpty_iff.mp hempty]
    exact List.prefix_rfl
  · exact List.prefix_append _ _

end SettingsBlock

/-! ## The text as a whole -/

namespace Config

variable {o : WriteOptions} {c : Config} {m : Text}

/-- An updated text is the kept text and the new snippet. -/
theorem updateSnippet_eq (o : WriteOptions) (old : Text) (c : Config) :
    c.updateSnippet o old = (c.toSnippet o).map (SettingsBlock.kept old ++ ·) := by
  rw [updateSnippet]
  congr 1
  funext new
  rw [SettingsBlock.kept]
  cases SettingsBlock.find? old with
  | none => rfl
  | some b => by_cases hempty : b.before.isEmpty = true <;> simp [hempty]

/-- A snippet that is written starts with the settings block of its config, and that block is the
one that is found in it. -/
theorem find?_of_toSnippet (h : c.toSnippet o = .ok m) : ∃ b, SettingsBlock.find? m = some b ∧
    b.before = [] ∧ c.settingsBlock = .ok b.written ∧ m = snippetText b.written (c.body o) := by
  obtain ⟨block, hblock, rfl⟩ := toSnippet_eq_ok.mp h
  obtain ⟨yaml, -, hend, rfl⟩ := settingsBlock_eq_ok.mp hblock
  refine ⟨⟨[], SettingsBlock.inside yaml, snippetText [] (c.body o)⟩, ?_, rfl, hblock, rfl⟩
  rw [snippetText_eq]
  exact SettingsBlock.find?_written hend _

/-- A text is read as the snippet from its settings block on. -/
theorem ofSnippet_append {s t : Text} {b : SettingsBlock} (hb : SettingsBlock.find? t = some b)
    (hst : SettingsBlock.find? (s ++ t) = some { b with before := s }) :
    ofSnippet (s ++ t) = ofSnippet t := by
  rw [ofSnippet, ofSnippet, hb, hst]

/-- A config that can be written is put into every text. The block that is found in the new text is
the one that is written for the config, and behind it stands the body of the config, so the text is
read as the config's snippet. What stood in front of the old block still does, white space at its
end aside. A later update does what it would have done to the old text. -/
theorem updateSnippet_wellBehaved (old : Text) (h : c.toSnippet o = .ok m) :
    ∃ u b, c.updateSnippet o old = .ok u ∧ SettingsBlock.find? u = some b ∧
      c.settingsBlock = .ok b.written ∧ b.written ++ b.after = snippetText b.written (c.body o) ∧
      ofSnippet u = ofSnippet m ∧
      (∀ d, SettingsBlock.find? old = some d → trimEnd d.before <+: u) ∧
      (∀ (o' : WriteOptions) (c' : Config), c'.updateSnippet o' u = c'.updateSnippet o' old) ∧
      c.updateSnippet o u = .ok u := by
  obtain ⟨b, hb, hfront, hblock, hm⟩ := find?_of_toSnippet h
  have hfind := SettingsBlock.find?_append (SettingsBlock.not_opening_kept old) hb hfront
  have hupdate : c.updateSnippet o old = .ok (SettingsBlock.kept old ++ m) := by
    rw [updateSnippet_eq, h]
    rfl
  have hlater (o' : WriteOptions) (c' : Config) :
      c'.updateSnippet o' (SettingsBlock.kept old ++ m) = c'.updateSnippet o' old := by
    rw [updateSnippet_eq, updateSnippet_eq, SettingsBlock.kept_append hb hfront]
  have hwhole := SettingsBlock.eq_of_find? hb
  rw [hfront, List.nil_append] at hwhole
  refine ⟨_, _, hupdate, hfind, hblock, hwhole.symm.trans hm, ofSnippet_append hb hfind, ?_, hlater,
    (hlater o c).trans hupdate⟩
  intro d hd
  exact (SettingsBlock.trimEnd_before_prefix_kept hd).trans (List.prefix_append _ _)

/-- A config whose name looks like the opening of a settings block. -/
def markedName : Config := { name := some "/* @settings", id := "x" }

/-- How the config is written. -/
def markedYaml : Text := "name: /* @settings\nid: x\nsettings: []\n"

/-- A snippet behind a comment that stops short of being a settings block, with another settings
block in its body. -/
def markedText : Text := "/* @setting */ \n/* @settings\nid: q\n*//* @settings */"

/-- The first settings block of the text is replaced, the comment in front of it is kept, and
replacing the block again changes nothing. -/
theorem updateSnippet_wellBehaved_marked : ∃ m u b, markedName.toSnippet {} = .ok m ∧
    markedName.updateSnippet {} markedText = .ok u ∧ SettingsBlock.find? u = some b ∧
      markedName.settingsBlock = .ok b.written ∧ ofSnippet u = ofSnippet m ∧
        "/* @setting */".toList <+: u ∧ markedName.updateSnippet {} u = .ok u := by
  have hwrite : Yaml.write? (Schema.encode markedName) = some markedYaml := by
    decide +kernel
  have hend : Text.contains SettingsBlock.closing markedYaml = false := by
    decide
  have hfind : SettingsBlock.find? markedText =
      some ⟨"/* @setting */ \n", "\nid: q\n", "/* @settings */"⟩ := by
    decide +kernel
  have htrim : trimEnd "/* @setting */ \n" = "/* @setting */".toList := by
    decide +kernel
  obtain ⟨m, hm⟩ := exists_toSnippet hwrite hend {}
  obtain ⟨u, b, hu, hb, hblock, -, hread, hkept, -, hagain⟩ :=
    updateSnippet_wellBehaved markedText hm
  have hlead := hkept _ hfind
  rw [htrim] at hlead
  exact ⟨m, u, b, hm, hu, hb, hblock, hread, hlead, hagain⟩

end Config

end StyleSnippet
