import StyleSnippet.Proofs.Css.Reading

/-!
# No selector escapes the scope class

Where style rules are written, every selector of a confined stylesheet starts with the scope class
as a whole token, comments and white space aside. It is told of the output: the range that a record
names is the prelude as it was written, and the selectors are those that this prelude falls into.
-/

set_option autoImplicit false

namespace StyleSnippet.Css

open Text

variable {scope s : Text} {b : BlockRecord}

/-! ## One selector -/

/-- The selector starts with the class as a whole token, once its comments and the white space
around it are taken off. -/
def Confined (scope s : Text) : Prop :=
  ∃ rest, trim (stripComments s) = scope ++ rest ∧ ∀ c ∈ rest.head?, endsClass c = true

/-- A selector is found to be scoped just if it is confined. -/
theorem isScoped_iff : isScoped scope s = true ↔ Confined scope s := by
  rw [isScoped, startsWithClass, Confined]
  cases ha : after? scope (trim (stripComments s)) with
  | none =>
    rw [after?_eq_none_iff] at ha
    constructor
    · simp
    · rintro ⟨rest, hrest, -⟩
      exact absurd ⟨rest, hrest.symm⟩ ha
  | some rest =>
    have hsplit := eq_append_of_after? ha
    have hiff : (∃ r, trim (stripComments s) = scope ++ r ∧ ∀ c ∈ r.head?, endsClass c = true) ↔
        ∀ c ∈ rest.head?, endsClass c = true := by
      rw [hsplit]
      constructor
      · rintro ⟨r, hr, hend⟩
        rwa [List.append_cancel_left hr]
      · intro hend
        exact ⟨rest, rfl, hend⟩
    rw [hiff]
    cases rest <;> simp

/-- White space and comments are left alone. -/
theorem prefixSelector_of_lead (h : Lead s) : prefixSelector scope s = s := by
  have hnil := cutLead_snd_eq_nil_iff.mpr h
  unfold prefixSelector
  split
  · rfl
  · cases hcut : cutLead s with
    | mk lead body =>
      rw [hcut] at hnil
      simp only at hnil
      rw [hnil]

/-- A selector that is confined starts with the class, unless it is white space and comments. -/
theorem confined_prefixSelector (hs : ScopeClass scope) (h : ¬ Lead (prefixSelector scope s)) :
    Confined scope (prefixSelector scope s) := by
  have hlead : ¬ Lead s := by
    intro hl
    rw [prefixSelector_of_lead hl] at h
    exact h hl
  rw [← isScoped_iff]
  by_cases hscoped : isScoped scope s = true
  · rwa [prefixSelector, if_pos hscoped]
  · cases hcut : cutLead s with
    | mk lead body =>
      cases body with
      | nil => exact absurd (cutLead_snd_eq_nil_iff.mp (by rw [hcut])) hlead
      | cons c r =>
        have hdone := isScoped_lead_append hs s (c :: r)
        rw [hcut] at hdone
        rwa [prefixSelector, if_neg hscoped, hcut]

/-! ## Every selector -/

/-- Each block that opens where style rules are written and is no at-rule is confined: of its
prelude in the output, every selector that is more than white space and comments starts with the
class. No other block is confined. -/
theorem confined_of_mem_blocks (hs : ScopeClass scope) {css : Text}
    (hb : b ∈ (scan scope css).blocks) :
    (b.atRule = none → b.parent = .root ∨ b.parent = .container →
      b.confined = true ∧ ∃ p, (scan scope css).prelude? b = some p ∧
        ∀ s ∈ splitSelectors p, ¬ Lead s → Confined scope s) ∧
    (b.atRule ≠ none ∨ b.parent = .shielded ∨ b.parent = .block → b.confined = false) := by
  obtain ⟨before, prelude, rest, rfl, hopens⟩ := exists_opens hb
  have hconf := hopens.confined_iff
  constructor
  · intro hat hparent
    have hscopes : b.parent.scopesSelectors = true := by
      rcases hparent with h | h <;> rw [h] <;> rfl
    have hb : b.confined = true := hconf.mpr ⟨hat, hscopes⟩
    refine ⟨hb, prefixSelectors scope prelude, ?_, ?_⟩
    · rw [hopens.prelude?_eq, BlockRecord.writes, if_pos hb]
    · intro s hmem hlead
      rw [splitSelectors_prefixSelectors hs, List.mem_map] at hmem
      obtain ⟨s, -, rfl⟩ := hmem
      exact confined_prefixSelector hs hlead
  · intro h
    by_contra hb
    obtain ⟨hat, hscopes⟩ := hconf.mp (by simpa using hb)
    rcases h with h | h | h
    · exact h hat
    · rw [h] at hscopes
      exact absurd hscopes (by decide)
    · rw [h] at hscopes
      exact absurd hscopes (by decide)

/-- A rule in a conditional at-rule, with a comment that holds a comma and a selector that is
only a comment. -/
def nestedRule : Text := "@media x\x7b a,/*,*/,/*b*/.c\x7b\x7d\x7d"

/-- The record of the rule. -/
def nestedRuleRecord : BlockRecord where
  start := 9
  stop := 33
  parent := .container
  context := .block
  atRule := none
  confined := true
  depth := 2

/-- The rule in a conditional at-rule is confined in each of its selectors. -/
theorem confined_of_mem_blocks_nested : ScopeClass ".ns" ∧
    nestedRuleRecord ∈ (scan ".ns" nestedRule).blocks ∧
      nestedRuleRecord.atRule = none ∧ nestedRuleRecord.parent = .container ∧
        nestedRuleRecord.confined = true ∧
          ∃ p, (scan ".ns" nestedRule).prelude? nestedRuleRecord = some p ∧
            ∀ s ∈ splitSelectors p, ¬ Lead s → Confined ".ns" s := by
  have hs : ScopeClass ".ns" := by decide
  have hb : nestedRuleRecord ∈ (scan ".ns" nestedRule).blocks := by decide +kernel
  exact ⟨hs, hb, rfl, rfl, (confined_of_mem_blocks hs hb).1 rfl (Or.inr rfl)⟩

end StyleSnippet.Css
