import StyleSnippet.Proofs.Css.Prefixing

/-!
# At-signs and style rules

A prelude is taken for that of an at-rule just if it has an at-sign outside comments and string
literals that a name follows. Where the at-sign stands and what is in front of it does not matter:
a backslash in front of an at-sign, which makes it part of an ordinary name in CSS, is not noticed.
So a style rule with such a selector is taken for an at-rule, and is not confined, exactly if a name
character follows one of its at-signs.
-/

set_option autoImplicit false

namespace StyleSnippet.Css

open Text

variable {scope t p q : Text} {m : Mode} {c : Char} {r : Text} {b : BlockRecord}

/-! ## At-signs -/

/-- An at-sign outside comments and string literals of a text that is read in a mode, told by the
text before it and the text behind it. -/
structure AtSign (m : Mode) (t before behind : Text) : Prop where
  eq : t = before ++ '@' :: behind
  code : (m.after before).isCode = true

/-- Whether a text starts with a name, comments and string literals aside. -/
def StartsName (t : Text) : Prop := (codeOnly t).head?.any isNameChar = true

/-- Whether a text starts with a name can be computed. -/
instance (t : Text) : Decidable (StartsName t) := inferInstanceAs (Decidable (_ = _))

/-- The empty text has no at-signs. -/
theorem not_atSign_nil : ¬ AtSign m [] p q := fun h => by simpa using h.eq

/-- An at-sign is the first character of a text, or stands behind it. -/
theorem atSign_cons_iff : AtSign m (c :: r) p q ↔
    (p = [] ∧ c = '@' ∧ q = r ∧ m.isCode = true) ∨
      ∃ p', p = c :: p' ∧ AtSign (m.next c) r p' q := by
  constructor
  · rintro ⟨heq, hcode⟩
    cases p with
    | nil =>
      rw [List.nil_append, List.cons.injEq] at heq
      exact Or.inl ⟨rfl, heq.1, heq.2.symm, hcode⟩
    | cons d p' =>
      rw [List.cons_append, List.cons.injEq] at heq
      obtain ⟨rfl, heq⟩ := heq
      exact Or.inr ⟨p', rfl, heq, hcode⟩
  · rintro (⟨rfl, rfl, rfl, hcode⟩ | ⟨p', rfl, heq, hcode⟩)
    · exact ⟨rfl, hcode⟩
    · exact ⟨congrArg (c :: ·) heq, hcode⟩

/-- An at-sign that is code comes last of what is known to be code then. -/
theorem Mode.given_at (hm : m.isCode = true) :
    ∃ e, '@' ∉ e ∧ m.given '@' = e ++ ['@'] ∧ m.next '@' = .code := by
  rcases eq_code_or_slash hm with rfl | rfl
  · exact ⟨[], by simp, rfl, rfl⟩
  · exact ⟨['/'], by decide, rfl, rfl⟩

/-- Any other character gives no at-sign. -/
theorem Mode.at_not_mem_given (h : m.isCode = true → c ≠ '@') : '@' ∉ m.given c := by
  cases m with
  | code =>
    have hc : '@' ≠ c := (h rfl).symm
    rw [given]
    split <;> simp [hc]
  | slash =>
    have hc : '@' ≠ c := (h rfl).symm
    rw [given]
    split
    · simp
    · split <;> simp [hc]
  | comment => simp [given]
  | star => simp [given]
  | quoted q => simp [given]
  | escaped q => simp [given]

/-- No at-rule name is found in the code of a text just if no name follows any of its at-signs. -/
theorem firstAtName?_codeFrom_eq_none_iff : firstAtName? (m.codeFrom t) = none ↔
    ∀ p q, AtSign m t p q → ¬ StartsName q := by
  induction t generalizing m with
  | nil =>
    have hnone : firstAtName? (m.codeFrom []) = none := by
      rw [Mode.codeFrom, Mode.givenBy, List.nil_append]
      split <;> rfl
    simp [hnone, not_atSign_nil]
  | cons c r ih =>
    have hsplit : (∀ p q, AtSign m (c :: r) p q → ¬ StartsName q) ↔
        (c = '@' → m.isCode = true → ¬ StartsName r) ∧
          ∀ p q, AtSign (m.next c) r p q → ¬ StartsName q := by
      simp only [atSign_cons_iff]
      constructor
      · intro h
        exact ⟨fun hc hm => h [] r (Or.inl ⟨rfl, hc, rfl, hm⟩),
          fun p q hat => h (c :: p) q (Or.inr ⟨p, rfl, hat⟩)⟩
      · rintro ⟨hfirst, hrest⟩ p q (⟨-, hc, rfl, hm⟩ | ⟨p', -, hat⟩)
        · exact hfirst hc hm
        · exact hrest p' q hat
    rw [hsplit, ← ih, Mode.codeFrom_cons]
    by_cases hat : c = '@' ∧ m.isCode = true
    · obtain ⟨rfl, hm⟩ := hat
      obtain ⟨e, he, hgiven, hnext⟩ := Mode.given_at hm
      rw [hgiven, hnext, List.append_assoc, firstAtName?_append_of_not_mem he,
        List.singleton_append, firstAtName?_cons_eq_none, StartsName, codeOnly_eq]
      simp [hm]
    · have hgiven : '@' ∉ m.given c := Mode.at_not_mem_given fun hm hc => hat ⟨hc, hm⟩
      rw [firstAtName?_append_of_not_mem hgiven]
      exact ⟨fun h => ⟨fun hc hm => absurd ⟨hc, hm⟩ hat, h⟩, And.right⟩

/-- A prelude writes no at-rule just if no name follows any of its at-signs. -/
theorem atRule?_eq_none_iff (hbrace : '{' ∉ codeOnly t) : atRule? t = none ↔
    ∀ p q, AtSign .code t p q → ¬ StartsName q := by
  rw [atRule?_eq hbrace, codeOnly_eq]
  exact firstAtName?_codeFrom_eq_none_iff

/-! ## Style rules -/

/-- A block with the given prelude is recorded as a style rule, and its selectors are confined. -/
structure IsRule (scope css prelude : Text) (b : BlockRecord) : Prop where
  atRule : b.atRule = none
  context : b.context = .block
  confined : b.confined = true
  /-- The prelude in the output falls into the selectors of the prelude, each of them confined. -/
  selectors : ∃ w, (scan scope css).prelude? b = some w ∧
    List.Forall₂ (Prefixed scope) (splitSelectors prelude) (splitSelectors w)

/-- Where style rules are written, a block without an at-rule name is a style rule. -/
theorem Opens.isRule {before prelude : Text} (hs : ScopeClass scope)
    (h : Opens scope before prelude b) (hscopes : b.parent.scopesSelectors = true)
    (hnone : b.atRule = none) (rest : Text) :
    IsRule scope (before ++ prelude ++ '{' :: rest) prelude b := by
  have hconf : b.confined = true := h.confined_iff.mpr ⟨hnone, hscopes⟩
  refine ⟨hnone, ?_, hconf, prefixSelectors scope prelude, ?_, forall₂_prefixed hs prelude⟩
  · rw [h.context_eq, hnone]
    rfl
  · rw [h.prelude?_eq, BlockRecord.writes, if_pos hconf]

/-- Where style rules are written, a block is recorded as a style rule and confined exactly if no
name follows an at-sign of its prelude, escaped or not. -/
theorem isRule_iff (hs : ScopeClass scope) {css : Text} (hb : b ∈ (scan scope css).blocks)
    (hparent : b.parent = .root ∨ b.parent = .container) :
    (∃ before prelude rest, css = before ++ prelude ++ '{' :: rest ∧
      Opens scope before prelude b) ∧
    ∀ before prelude rest, css = before ++ prelude ++ '{' :: rest → Opens scope before prelude b →
      (IsRule scope css prelude b ↔ ∀ p q, AtSign .code prelude p q → ¬ StartsName q) := by
  refine ⟨exists_opens hb, ?_⟩
  rintro before prelude rest rfl hopens
  have hscopes : b.parent.scopesSelectors = true := by
    rcases hparent with h | h <;> rw [h] <;> rfl
  rw [← atRule?_eq_none_iff hopens.brace_not_mem, ← hopens.atRule_eq]
  exact ⟨IsRule.atRule, fun hnone => hopens.isRule hs hscopes hnone rest⟩

/-- A selector list with an escaped at-sign in front of a pseudo-class, one in a string literal and
one in a comment. -/
def escapedPrelude : Text := ".a\\@:b,[c='@d'] /*@e*/"

/-- A conditional at-rule around a style rule with that selector list. -/
def escapedSheet : Text := "@media f\x7b".toList ++ escapedPrelude ++ '{' :: "\x7d\x7d".toList

/-- The record of the style rule. -/
def escapedRecord : BlockRecord where
  start := 9
  stop := 39
  parent := .container
  context := .block
  atRule := none
  confined := true
  depth := 2

/-- The style rule with the escaped at-sign, which no name follows, is recorded as a style rule. -/
theorem isRule_iff_escaped : ScopeClass ".ns" ∧
    escapedRecord ∈ (scan ".ns" escapedSheet).blocks ∧ escapedRecord.parent = .container ∧
      Opens ".ns" "@media f\x7b" escapedPrelude escapedRecord ∧
        (∀ p q, AtSign .code escapedPrelude p q → ¬ StartsName q) ∧
          IsRule ".ns" escapedSheet escapedPrelude escapedRecord := by
  have hs : ScopeClass ".ns" := by decide
  have hb : escapedRecord ∈ (scan ".ns" escapedSheet).blocks := by decide +kernel
  have hopens : Opens ".ns" "@media f\x7b" escapedPrelude escapedRecord :=
    ⟨by decide +kernel, by decide +kernel⟩
  have hnone : ∀ p q, AtSign .code escapedPrelude p q → ¬ StartsName q :=
    (atRule?_eq_none_iff hopens.brace_not_mem).mp (by decide +kernel)
  exact ⟨hs, hb, rfl, hopens, hnone,
    ((isRule_iff hs hb (Or.inr rfl)).2 _ escapedPrelude _ rfl hopens).mpr hnone⟩

/-! ## An escaped at-sign in front of a name -/

/-- The record of a style rule with a class name that has an escaped at-sign in it. -/
def responsiveRecord : BlockRecord where
  start := 0
  stop := 10
  parent := .root
  context := .shielded
  atRule := some "md"
  confined := false
  depth := 1

/-- A style rule at the top level, all of whose at-signs are escaped, is taken for an at-rule. -/
theorem exists_escaped_rule : ∃ css before prelude rest b, b ∈ (scan ".ns" css).blocks ∧
    b.parent = .root ∧ css = before ++ prelude ++ '{' :: rest ∧ Opens ".ns" before prelude b ∧
      (∀ p q, AtSign .code prelude p q → p.getLast? = some '\\') ∧
        ¬ IsRule ".ns" css prelude b ∧ b.atRule = some "md" ∧ b.context = .shielded ∧
          b.confined = false := by
  refine ⟨".card\\@md ".toList ++ '{' :: " color: red; \x7d".toList, [], ".card\\@md ",
    " color: red; \x7d", responsiveRecord, by decide +kernel, rfl, rfl,
    ⟨by decide +kernel, by decide +kernel⟩, ?_, fun h => absurd h.atRule (by decide), rfl, rfl, rfl⟩
  intro p q hat
  have hinits : ∀ p ∈ List.inits ".card\\@md ".toList,
      (".card\\@md ".toList.drop p.length).head? = some '@' → p.getLast? = some '\\' := by
    decide +kernel
  apply hinits p
  · rw [List.mem_inits]
    exact ⟨_, hat.eq.symm⟩
  · rw [hat.eq, List.drop_left']
    · rfl
    · rfl

end StyleSnippet.Css
