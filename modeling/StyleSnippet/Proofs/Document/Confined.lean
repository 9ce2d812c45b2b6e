import StyleSnippet.Proofs.Css.Scope
import StyleSnippet.Proofs.Document.Identifier
import StyleSnippet.Proofs.Document.Sharing

/-!
# Confining a document

A document is confined behind its settings block, or as a whole if it has none. The class that is
put in can neither make up a mark of a settings block nor stand inside of one, so the block that is
found in the confined document is the one of the document, or there is still none. What the document
is read as hence changes in its CSS only, and confining it again changes nothing.
-/

set_option autoImplicit false

namespace StyleSnippet

open Text

variable {id t : Text}

/-! ## Where a settings block is found -/

namespace SettingsBlock

variable {b : SettingsBlock}

/-- The block does not depend on what follows it. -/
theorem find?_replace (hb : find? t = some b) (after : Text) :
    find? (b.before ++ b.written ++ after) = some { b with after := after } := by
  obtain ⟨inside, hopen, hclose⟩ := find?_eq_some.mp hb
  obtain ⟨-, hfirst⟩ := (cutFirst?_eq_some_iff (by decide)).mp hopen
  obtain ⟨-, hend⟩ := (cutFirst?_eq_some_iff (by decide)).mp hclose
  refine find?_eq_some.mpr ⟨b.yaml ++ closing ++ after, ?_, ?_⟩
  · have hjoin : b.before ++ b.written ++ after =
        b.before ++ opening ++ (b.yaml ++ closing ++ after) := by
      simp only [written, List.append_assoc]
    rw [hjoin]
    exact cutFirst?_eq (by decide) hfirst _
  · exact cutFirst?_eq (by decide) hend after

/-- There is a block as soon as the two marks follow each other anywhere. -/
theorem exists_find? {x y z : Text} (h : t = x ++ (opening ++ (y ++ (closing ++ z)))) :
    ∃ b, find? t = some b := by
  obtain ⟨⟨before, inside⟩, hopen⟩ := exists_cutFirst? (n := opening) (t := t)
    ⟨x, y ++ (closing ++ z), by rw [h, List.append_assoc]⟩
  obtain ⟨ht, hfirst⟩ := (cutFirst?_eq_some_iff (by decide)).mp hopen
  -- The first opening is not behind this one, so the closing is behind the first opening.
  have hle : before.length ≤ x.length := by
    refine (not_infix_dropLast_iff (t := inside) (by decide)).mp hfirst x ?_
    exact ⟨y ++ (closing ++ z), by rw [← ht, h, List.append_assoc]⟩
  have hsuffix : y ++ (closing ++ z) <:+ inside := by
    have hleft : y ++ (closing ++ z) <:+ t := ⟨x ++ opening, by rw [h, List.append_assoc]⟩
    refine List.suffix_of_suffix_length_le hleft ⟨before ++ opening, ht.symm⟩ ?_
    have hlength := congrArg List.length (h.symm.trans ht)
    simp only [List.length_append] at hlength ⊢
    omega
  have hclosing : closing <:+: inside :=
    List.IsInfix.trans ⟨y, z, List.append_assoc _ _ _⟩ hsuffix.isInfix
  obtain ⟨⟨yaml, after⟩, hclose⟩ := exists_cutFirst? hclosing
  exact ⟨⟨before, yaml, after⟩, find?_eq_some.mpr ⟨inside, hopen, hclose⟩⟩

end SettingsBlock

/-- Confining a stylesheet makes up no settings block. -/
theorem find?_scopeCss {scope : Text} (hs : Css.ScopeClass scope)
    (hnone : SettingsBlock.find? t = none) :
    SettingsBlock.find? (Css.scopeCss scope t) = none := by
  cases hfind : SettingsBlock.find? (Css.scopeCss scope t) with
  | none => rfl
  | some b =>
    have hins := Css.insertion_scopeCss hs t
    rw [SettingsBlock.eq_of_find? hfind, SettingsBlock.written, List.append_assoc,
      List.append_assoc, List.append_assoc] at hins
    have hopening : ∀ c ∈ SettingsBlock.opening.head?, c ≠ ' ' ∧ ¬ Css.Inert c := by
      rintro c ⟨⟩
      decide
    have hclosing : ∀ c ∈ SettingsBlock.closing.head?, c ≠ ' ' ∧ ¬ Css.Inert c := by
      rintro c ⟨⟩
      decide
    obtain ⟨x, r, m, ht, hr⟩ := hins.of_infix hs (by decide) (by decide) hopening
    obtain ⟨y, z, -, hinside, -⟩ := hr.of_infix hs (by decide) (by decide) hclosing
    rw [hinside] at ht
    obtain ⟨b', hb'⟩ := SettingsBlock.exists_find? ht
    rw [hnone] at hb'
    cases hb'

/-! ## The confined document -/

/-- In a text with a settings block, what stands behind the block is confined. -/
theorem scopeDocument_of_find? {b : SettingsBlock} (hb : SettingsBlock.find? t = some b) :
    scopeDocument id t =
      b.before ++ b.written ++ Css.scopeCss (Css.scopeClass id) b.after := by
  rw [scopeDocument, hb]

/-- A text without a settings block is confined as a whole. -/
theorem scopeDocument_of_none (hnone : SettingsBlock.find? t = none) :
    scopeDocument id t = Css.scopeCss (Css.scopeClass id) t := by
  rw [scopeDocument, hnone]

/-- The block of the confined document is the block of the document. -/
theorem find?_scopeDocument (hs : Css.ScopeClass (Css.scopeClass id)) (t : Text) :
    SettingsBlock.find? (scopeDocument id t) =
      (SettingsBlock.find? t).map fun b =>
        { b with after := Css.scopeCss (Css.scopeClass id) b.after } := by
  cases hfind : SettingsBlock.find? t with
  | none =>
    rw [scopeDocument_of_none hfind]
    exact find?_scopeCss hs hfind
  | some b =>
    rw [scopeDocument_of_find? hfind]
    exact SettingsBlock.find?_replace hfind _

/-- Confining a document twice is confining it once. -/
theorem scopeDocument_scopeDocument (hs : Css.ScopeClass (Css.scopeClass id)) (t : Text) :
    scopeDocument id (scopeDocument id t) = scopeDocument id t := by
  have hagain (css : Text) :
      Css.scopeCss (Css.scopeClass id) (Css.scopeCss (Css.scopeClass id) css) =
        Css.scopeCss (Css.scopeClass id) css :=
    Css.scopeCss_eq_self fun _ hp => Css.rewritten_of_mem_scopeCss hs hp
  have hfind := find?_scopeDocument hs t
  cases ht : SettingsBlock.find? t with
  | none =>
    rw [ht] at hfind
    rw [scopeDocument_of_none hfind, scopeDocument_of_none ht, hagain]
  | some b =>
    rw [ht] at hfind
    rw [scopeDocument_of_find? hfind, scopeDocument_of_find? ht, hagain]
    rfl

namespace Config

/-- What a text is read as, CSS aside, is what its settings block says. -/
theorem map_bare_ofSnippet (t : Text) : (ofSnippet t).map bare =
    match SettingsBlock.find? t with
    | none => .error .noBlock
    | some b => (ofYaml b.yaml).map bare := by
  rw [ofSnippet]
  cases SettingsBlock.find? t with
  | none => rfl
  | some b =>
    cases hyaml : ofYaml b.yaml with
    | error e => simp only [Except.map, hyaml]
    | ok c => simp only [Except.map, hyaml, bare_withBody]

/-- Confining a document to the class of an id, of which no character is white space or means
anything to a reader of CSS, leaves the text up to the end of the settings block as it is, and that
block is the one that is found again; no block comes up where there was none. The document is read
as the same settings as before, CSS aside, or cannot be read for the same reason. Confining it again
changes nothing. -/
theorem scopeDocument_keepsSettings (hid : ∀ c ∈ trim id, Css.Inert c) (t : Text) :
    (∀ b, SettingsBlock.find? t = some b →
      b.before ++ b.written <+: scopeDocument id t ∧
        ∃ after, SettingsBlock.find? (scopeDocument id t) = some { b with after := after }) ∧
    (SettingsBlock.find? t = none → SettingsBlock.find? (scopeDocument id t) = none) ∧
    (ofSnippet (scopeDocument id t)).map bare = (ofSnippet t).map bare ∧
    scopeDocument id (scopeDocument id t) = scopeDocument id t := by
  have hs := scopeClass_of_inert hid
  have hfind := find?_scopeDocument hs t
  refine ⟨fun b hb => ⟨?_, ?_⟩, fun hnone => ?_, ?_, scopeDocument_scopeDocument hs t⟩
  · rw [scopeDocument_of_find? hb]
    exact List.prefix_append _ _
  · rw [hb] at hfind
    exact ⟨_, hfind⟩
  · rw [hnone] at hfind
    exact hfind
  · rw [map_bare_ofSnippet, map_bare_ofSnippet, hfind]
    cases SettingsBlock.find? t <;> rfl

/-- A snippet with another settings block in its body, and one that does not end. -/
def moreBlocks : Text :=
  "/* @settings\nid: q\n*/ a\x7b\x7d /* @settings */ b\x7b\x7d /* @settings c\x7b"

/-- Only the first block of the snippet counts, and the comments that look like blocks are copied.
-/
theorem scopeDocument_keepsSettings_moreBlocks : (∀ c ∈ trim " x-1 ", Css.Inert c) ∧
    scopeDocument " x-1 " moreBlocks =
      ("/* @settings\nid: q\n*/ .x-1 a\x7b\x7d /* @settings */ .x-1 b\x7b\x7d " ++
        "/* @settings c\x7b").toList ∧
    (∃ after, SettingsBlock.find? (scopeDocument " x-1 " moreBlocks) =
      some ⟨[], "\nid: q\n", after⟩) ∧
    (ofSnippet (scopeDocument " x-1 " moreBlocks)).map bare = (ofSnippet moreBlocks).map bare ∧
    scopeDocument " x-1 " (scopeDocument " x-1 " moreBlocks) =
      scopeDocument " x-1 " moreBlocks := by
  have hid : ∀ c ∈ trim " x-1 ", Css.Inert c := by decide
  have hfind : SettingsBlock.find? moreBlocks = some ⟨[], "\nid: q\n",
      " a\x7b\x7d /* @settings */ b\x7b\x7d /* @settings c\x7b"⟩ := by
    decide +kernel
  obtain ⟨hblock, -, hread, hagain⟩ := scopeDocument_keepsSettings hid moreBlocks
  exact ⟨hid, by decide +kernel, (hblock _ hfind).2, hread, hagain⟩

end Config

end StyleSnippet
