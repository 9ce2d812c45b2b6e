import StyleSnippet.Proofs.Css.Reading

/-!
# The bodies of blocks

The body of a block reaches from the brace that opens it to the one that closes it, or to the end
of the text. While it is read, the frames of the blocks around it stay where they are, and the
blocks that open in it stand directly in it or in one another.

The bodies of style rules and of at-rules such as `@keyframes` are to be left alone. They are, as
long as no conditional at-rule opens inside: a conditional at-rule makes the style rules in it be
confined whatever it stands in.
-/

set_option autoImplicit false

namespace StyleSnippet.Css

open Text

variable {scope before body rest prelude : Text} {b : BlockRecord}

/-- The body of a block, the text before it, and the text behind it. A block that is not closed
reaches to the end. -/
structure IsBody (scope before body rest : Text) (b : BlockRecord) : Prop where
  /-- The block opens at the end of the text before its body. -/
  opens : ∃ head prelude, before = head ++ prelude ++ ['{'] ∧ Opens scope head prelude b
  /-- The block stays open. -/
  inside : ∀ p, p <+: body → b.depth ≤ (Scan.read scope (before ++ p)).stack.depth
  /-- The block is closed, or the text ends. -/
  closed : rest = [] ∨ ∃ r, rest = '}' :: r ∧
    (Scan.read scope (before ++ body ++ ['}'])).stack.depth < b.depth

/-! ## Where a body ends -/

namespace Scan

/-- Only a closing brace that is a boundary closes a block. -/
theorem of_depth_step_lt (scope : Text) {s : Scan} {c : Char}
    (h : (s.step scope c).stack.depth < s.stack.depth) :
    c = '}' ∧ isBoundary s.stack s.mode c = true := by
  rw [stack_step] at h
  split at h
  · next hb =>
    refine ⟨?_, hb⟩
    by_contra hclose
    rw [stackAfter, if_neg hclose] at h
    split at h
    · rw [ContextStack.depth_push] at h
      omega
    · omega
  · omega

end Scan

/-- Text is read inside a block up to a closing brace, or to its end. -/
theorem exists_inside (scope : Text) (d : Nat) (before p rest : Text)
    (hp : ∀ q, q <+: p → d ≤ (Scan.read scope (before ++ q)).stack.depth) :
    ∃ q rest', rest = q ++ rest' ∧
      (∀ x, x <+: p ++ q → d ≤ (Scan.read scope (before ++ x)).stack.depth) ∧
      (rest' = [] ∨ ∃ r, rest' = '}' :: r ∧
        (Scan.read scope (before ++ (p ++ q) ++ ['}'])).stack.depth < d) := by
  induction rest generalizing p with
  | nil => exact ⟨[], [], rfl, by simpa using hp, Or.inl rfl⟩
  | cons c r ih =>
    by_cases hc : d ≤ (Scan.read scope (before ++ (p ++ [c]))).stack.depth
    · obtain ⟨q, rest', hr, hq, hend⟩ := ih (p ++ [c]) (by
        intro q hq
        rcases List.prefix_concat_iff.mp hq with rfl | hq
        · exact hc
        · exact hp q hq)
      have hpq : p ++ [c] ++ q = p ++ c :: q := by simp
      rw [hpq] at hq hend
      exact ⟨c :: q, rest', by rw [hr]; rfl, hq, hend⟩
    · have hpre := hp p (List.prefix_refl p)
      have hstep : ((Scan.read scope (before ++ p)).step scope c).stack.depth <
          (Scan.read scope (before ++ p)).stack.depth := by
        rw [← Scan.read_concat, List.append_assoc]
        omega
      obtain ⟨rfl, -⟩ := Scan.of_depth_step_lt scope hstep
      refine ⟨[], '}' :: r, rfl, by simpa using hp, Or.inr ⟨r, rfl, ?_⟩⟩
      rw [List.append_nil, List.append_assoc]
      omega

/-- The state behind the brace that opens a block. -/
theorem Opens.stack_eq (h : Opens scope before prelude b) :
    (Scan.read scope (before ++ prelude ++ ['{'])).stack.frames =
        b.context :: (Scan.read scope (before ++ prelude)).stack.frames ∧
      (Scan.read scope (before ++ prelude ++ ['{'])).stack.depth = b.depth := by
  rw [Scan.read_concat, Scan.step_of_isBoundary h.record_eq.1, h.record_eq.2]
  exact ⟨rfl, rfl⟩

/-- Every block that opens has a body. -/
theorem Opens.exists_isBody (h : Opens scope before prelude b) (rest : Text) :
    ∃ body rest', rest = body ++ rest' ∧
      IsBody scope (before ++ prelude ++ ['{']) body rest' b := by
  obtain ⟨body, rest', hrest, hinside, hclosed⟩ :=
    exists_inside scope b.depth (before ++ prelude ++ ['{']) [] rest (by
      intro q hq
      rw [List.prefix_nil.mp hq, List.append_nil]
      exact h.stack_eq.2.ge)
  exact ⟨body, rest', hrest, ⟨before, prelude, rfl, h⟩, hinside, hclosed⟩

/-- The body of a concrete block, found by trying each of its prefixes. -/
theorem isBody_of_inits {head r : Text} (hopens : Opens scope head prelude b)
    (hinside : ∀ p ∈ body.inits,
      b.depth ≤ (Scan.read scope (head ++ prelude ++ ['{'] ++ p)).stack.depth)
    (hclosed :
      (Scan.read scope (head ++ prelude ++ ['{'] ++ body ++ ['}'])).stack.depth < b.depth) :
    IsBody scope (head ++ prelude ++ ['{']) body ('}' :: r) b :=
  ⟨⟨head, prelude, rfl, hopens⟩, fun p hp => hinside p ((List.mem_inits p body).mpr hp),
    Or.inr ⟨r, rfl, hclosed⟩⟩

/-! ## What happens inside -/

/-- What a scan has done inside a block since the brace that opened it: the frames of the blocks
around are still there, the blocks that opened meanwhile stand in the block or in one another, and
if none of them was confined, the text is copied. -/
structure Inside (s₀ s : Scan) (p : Text) (frames : List Context) (inner : List BlockRecord) :
    Prop where
  stack : s.stack.frames = frames ++ s₀.stack.frames
  records : s.records = inner ++ s₀.records
  opened : ∀ c ∈ frames, ∃ r ∈ inner, r.context = c
  parents : ∀ r ∈ inner, r.parent = s₀.stack.current ∨ ∃ r' ∈ inner, r.parent = r'.context
  copied : (∀ r ∈ inner, r.confined = false) →
    s.done.reverse ++ s.prelude = s₀.done.reverse ++ s₀.prelude ++ p

namespace Inside

variable {s₀ s : Scan} {p : Text} {frames : List Context} {inner : List BlockRecord}

/-- The innermost open block is the block itself or one that opened in it. -/
theorem current_eq (h : Inside s₀ s p frames inner) :
    s.stack.current = s₀.stack.current ∨ ∃ r ∈ inner, s.stack.current = r.context := by
  rw [ContextStack.current, h.stack]
  cases frames with
  | nil => exact Or.inl rfl
  | cons c frames =>
    obtain ⟨r, hr, hc⟩ := h.opened c (by simp)
    exact Or.inr ⟨r, hr, hc.symm⟩

/-- A character that is copied and opens no block. -/
theorem of_copied (h : Inside s₀ s p frames inner) {s' : Scan} {frames' : List Context} {c : Char}
    (hsub : frames' ⊆ frames) (hstack : s'.stack.frames = frames' ++ s₀.stack.frames)
    (hrecords : s'.records = s.records)
    (hcopied : s'.done.reverse ++ s'.prelude = s.done.reverse ++ s.prelude ++ [c]) :
    Inside s₀ s' (p ++ [c]) frames' inner := by
  refine ⟨hstack, hrecords.trans h.records, fun f hf => h.opened f (hsub hf), h.parents, ?_⟩
  intro hnone
  rw [hcopied, h.copied hnone, List.append_assoc]

/-- A brace that opens a block. -/
theorem opening (h : Inside s₀ s p frames inner) (hb : isBoundary s.stack s.mode '{' = true) :
    Inside s₀ (s.step scope '{') (p ++ ['{']) (Context.ofPrelude (atRule? s.prelude) :: frames)
      (s.record scope :: inner) := by
  refine ⟨?_, ?_, ?_, ?_, ?_⟩
  · simp [Scan.stack_step, hb, stackAfter, h.stack]
  · simp [Scan.records_step, hb, h.records]
  · intro f hf
    rcases List.mem_cons.mp hf with rfl | hf
    · exact ⟨_, List.mem_cons_self, rfl⟩
    · obtain ⟨r, hr, hrf⟩ := h.opened f hf
      exact ⟨r, List.mem_cons_of_mem _ hr, hrf⟩
  · intro r hr
    have hold : r.parent = s₀.stack.current ∨ ∃ r' ∈ inner, r.parent = r'.context := by
      rcases List.mem_cons.mp hr with rfl | hr
      · exact h.current_eq
      · exact h.parents r hr
    rcases hold with hpar | ⟨r', hr', hpar⟩
    · exact Or.inl hpar
    · exact Or.inr ⟨r', List.mem_cons_of_mem _ hr', hpar⟩
  · intro hnone
    have hconf : isConfined s.stack s.prelude '{' = false := hnone _ List.mem_cons_self
    have hold : ∀ r ∈ inner, r.confined = false :=
      fun r hr => hnone r (List.mem_cons_of_mem _ hr)
    rw [Scan.copied_step scope fun _ => hconf, h.copied hold, List.append_assoc]

/-- One more character that leaves the block open. -/
theorem step (h : Inside s₀ s p frames inner) (c : Char) (hopen : 0 < s₀.stack.depth)
    (hdepth : s₀.stack.depth ≤ (s.step scope c).stack.depth) :
    ∃ frames' inner', Inside s₀ (s.step scope c) (p ++ [c]) frames' inner' := by
  by_cases hopens : isBoundary s.stack s.mode c = true ∧ c = '{'
  · obtain ⟨hb, rfl⟩ := hopens
    exact ⟨_, _, h.opening hb⟩
  · have hrecords : (s.step scope c).records = s.records := by
      rw [Scan.records_step, if_neg hopens]
    have hconf : isBoundary s.stack s.mode c = true → isConfined s.stack s.prelude c = false := by
      intro hb
      have hc : c ≠ '{' := fun hc => hopens ⟨hb, hc⟩
      simp [isConfined, hc]
    have hcopied := Scan.copied_step scope hconf
    have hstack := Scan.stack_step scope s c
    by_cases hcloses : isBoundary s.stack s.mode c = true ∧ c = '}'
    · obtain ⟨hb, rfl⟩ := hcloses
      rw [if_pos hb] at hstack
      cases frames with
      | nil =>
        -- the block itself would be closed
        have hsame : s.stack.depth = s₀.stack.depth := congrArg List.length h.stack
        have hclosed : (s.step scope '}').stack.depth = s.stack.depth - 1 := by
          rw [hstack]
          exact s.stack.depth_pop
        omega
      | cons f frames =>
        refine ⟨frames, inner, h.of_copied (List.subset_cons_self f frames) ?_ hrecords hcopied⟩
        rw [hstack]
        simp [stackAfter, h.stack]
    · refine ⟨frames, inner, h.of_copied (List.Subset.refl _) ?_ hrecords hcopied⟩
      rw [hstack]
      split
      · next hb =>
        rw [stackAfter, if_neg fun hc => hopens ⟨hb, hc⟩, if_neg fun hc => hcloses ⟨hb, hc⟩,
          h.stack]
      · exact h.stack

end Inside

/-- What a scan has done when it has read text inside a block. -/
theorem exists_inside_read (hopen : 0 < (Scan.read scope before).stack.depth)
    (hinside : ∀ p, p <+: body →
      (Scan.read scope before).stack.depth ≤ (Scan.read scope (before ++ p)).stack.depth) :
    ∃ frames inner, Inside (Scan.read scope before) (Scan.read scope (before ++ body)) body
      frames inner := by
  induction body using List.reverseRecOn with
  | nil =>
    rw [List.append_nil]
    exact ⟨[], [], rfl, rfl, by simp, by simp, by simp⟩
  | append_singleton p c ih =>
    obtain ⟨frames, inner, h⟩ := ih fun q hq => hinside q (hq.trans (List.prefix_append p [c]))
    have hlast := hinside (p ++ [c]) (List.prefix_refl _)
    rw [← List.append_assoc, Scan.read_concat] at hlast ⊢
    exact h.step c hopen hlast

/-! ## Bodies that are left alone -/

namespace Context

/-- The body of a block is never the top level. -/
theorem ofPrelude_ne_root (name? : Option Text) : ofPrelude name? ≠ .root := by
  cases name? with
  | none => simp [ofPrelude]
  | some name =>
    rw [ofPrelude, ofAtRule]
    split <;> simp

/-- Below the top level, style rules are written in the bodies of conditional at-rules only. -/
theorem scopesSelectors_iff {c : Context} (h : c ≠ .root) :
    c.scopesSelectors = true ↔ c = .container := by
  cases c <;> simp_all [scopesSelectors]

end Context

namespace IsBody

/-- The state of a scan at the start of a body. -/
theorem read_eq (h : IsBody scope before body rest b) :
    (Scan.read scope before).stack.current = b.context ∧
      (Scan.read scope before).stack.depth = b.depth ∧ 0 < b.depth ∧
        (Scan.read scope before).prelude = [] ∧
          (Scan.read scope before).done.reverse = scopeCss scope before := by
  obtain ⟨head, prelude, rfl, hopens⟩ := h.opens
  obtain ⟨hframes, hdepth⟩ := hopens.stack_eq
  have hheld : (Scan.read scope (head ++ prelude ++ ['{'])).prelude = [] := by
    rw [Scan.read_concat, Scan.step_of_isBoundary hopens.record_eq.1]
    rfl
  refine ⟨?_, hdepth, ?_, hheld, ?_⟩
  · rw [ContextStack.current, hframes]
    rfl
  · rw [← hdepth, ContextStack.depth, hframes]
    simp
  · rw [scopeCss_eq_done, hheld, List.append_nil]

/-- What a scan has done when it has read a body, and the blocks that it opened. -/
theorem exists_inner (h : IsBody scope before body rest b) : ∃ frames inner,
    Inside (Scan.read scope before) (Scan.read scope (before ++ body)) body frames inner ∧
      (scan scope (before ++ body)).blocks = (scan scope before).blocks ++ inner.reverse := by
  obtain ⟨-, hdepth, hopen, -, -⟩ := h.read_eq
  obtain ⟨frames, inner, hin⟩ :=
    exists_inside_read (hdepth ▸ hopen) fun p hp => hdepth ▸ h.inside p hp
  refine ⟨frames, inner, hin, ?_⟩
  rw [blocks_scan, blocks_scan, hin.records, List.reverse_append]

/-- What has been copied up to the end of a body is copied whatever follows, and so is the brace
that closes it. -/
theorem exists_tail (h : IsBody scope before body rest b) {w : Text}
    (hw : (Scan.read scope (before ++ body)).done.reverse ++
      (Scan.read scope (before ++ body)).prelude = w) :
    ∃ tail, scopeCss scope (before ++ body ++ rest) = w ++ tail ∧ tail.head? = rest.head? := by
  rcases h.closed with rfl | ⟨r, rfl, hless⟩
  · refine ⟨[], ?_, rfl⟩
    rw [List.append_nil, List.append_nil, scopeCss_eq_done, hw]
  · obtain ⟨-, hb⟩ : '}' = '}' ∧ isBoundary (Scan.read scope (before ++ body)).stack
        (Scan.read scope (before ++ body)).mode '}' = true := by
      apply Scan.of_depth_step_lt scope
      rw [← Scan.read_concat]
      exact hless.trans_le (h.inside body (List.prefix_refl body))
    have hdone : (Scan.read scope (before ++ body ++ ['}'])).done.reverse = w ++ ['}'] := by
      rw [← hw, Scan.read_concat, Scan.step_of_isBoundary hb]
      simp [Scan.sentOn, isConfined]
    obtain ⟨tail, htail⟩ := done_isPrefix scope (before ++ body ++ ['}']) r
    rw [hdone] at htail
    refine ⟨'}' :: tail, ?_, rfl⟩
    rw [List.append_assoc, List.append_assoc] at htail
    simpa using htail.symm

end IsBody

section Inner

variable {inner : List BlockRecord} (h : IsBody scope before body rest b)
  (hinner : (scan scope (before ++ body)).blocks = (scan scope before).blocks ++ inner)
include h hinner

/-- The blocks that open in a body stand directly in it or in one another. -/
theorem IsBody.parents :
    ∀ r ∈ inner, r.parent = b.context ∨ ∃ r' ∈ inner, r.parent = r'.context := by
  obtain ⟨frames, inner', hin, hblocks⟩ := h.exists_inner
  obtain rfl := List.append_cancel_left (hinner.symm.trans hblocks)
  simpa only [List.mem_reverse, h.read_eq.1] using hin.parents

/-- Where none of the blocks that open in a body is confined, the body is copied. -/
theorem IsBody.copied (hnone : ∀ r ∈ inner, r.confined = false) : ∃ tail,
    scopeCss scope (before ++ body ++ rest) = scopeCss scope before ++ body ++ tail ∧
      tail.head? = rest.head? := by
  obtain ⟨frames, inner', hin, hblocks⟩ := h.exists_inner
  obtain rfl := List.append_cancel_left (hinner.symm.trans hblocks)
  obtain ⟨-, -, -, hheld, hwritten⟩ := h.read_eq
  have hcopied := hin.copied fun r hr => hnone r (List.mem_reverse.mpr hr)
  rw [hheld, List.append_nil, hwritten] at hcopied
  exact h.exists_tail hcopied

/-- In the body of a style rule or of an at-rule that is not conditional, a block is confined just
if it is a style rule that stands directly in a conditional at-rule. -/
theorem IsBody.confined_iff (hcontext : b.context = .shielded ∨ b.context = .block) :
    ∀ r ∈ inner, r.confined = true ↔ r.atRule = none ∧ r.parent = .container := by
  have hopens (r : BlockRecord) (hr : r ∈ inner) : ∃ u prelude, Opens scope u prelude r := by
    have hmem : r ∈ (scan scope (before ++ body)).blocks := by
      rw [hinner]
      exact List.mem_append_right _ hr
    obtain ⟨u, prelude, -, -, hopens⟩ := exists_opens hmem
    exact ⟨u, prelude, hopens⟩
  intro r hr
  have hroot : r.parent ≠ .root := by
    rcases h.parents hinner r hr with hpar | ⟨r', hr', hpar⟩
    · rw [hpar]
      rcases hcontext with hc | hc <;> simp [hc]
    · obtain ⟨u, prelude, hr'⟩ := hopens r' hr'
      rw [hpar, hr'.context_eq]
      exact Context.ofPrelude_ne_root _
  obtain ⟨u, prelude, hr⟩ := hopens r hr
  rw [hr.confined_iff, Context.scopesSelectors_iff hroot]

end Inner

/-- The body of a style rule or of an at-rule that is not conditional: every block in it is
confined just if it is a style rule that stands directly in a conditional at-rule, so none is where
no conditional at-rule opens, and then the body is copied. -/
theorem body_copied {css : Text} (hb : b ∈ (scan scope css).blocks)
    (hcontext : b.context = .shielded ∨ b.context = .block) :
    (∃ before body rest, css = before ++ body ++ rest ∧ IsBody scope before body rest b) ∧
    ∀ before body rest inner, css = before ++ body ++ rest → IsBody scope before body rest b →
      (scan scope (before ++ body)).blocks = (scan scope before).blocks ++ inner →
      (∀ r ∈ inner, r.confined = true ↔ r.atRule = none ∧ r.parent = .container) ∧
      ((∀ r ∈ inner, r.context ≠ .container) → ∀ r ∈ inner, r.confined = false) ∧
      ((∀ r ∈ inner, r.confined = false) → ∃ tail,
        scopeCss scope css = scopeCss scope before ++ body ++ tail ∧ tail.head? = rest.head?) := by
  constructor
  · obtain ⟨before, prelude, rest, rfl, hopens⟩ := exists_opens hb
    obtain ⟨body, rest', rfl, hbody⟩ := hopens.exists_isBody rest
    exact ⟨before ++ prelude ++ ['{'], body, rest', by simp, hbody⟩
  · rintro before body rest inner rfl hbody hinner
    have hiff := hbody.confined_iff hinner hcontext
    refine ⟨hiff, ?_, hbody.copied hinner⟩
    intro hnone r hr
    by_contra hconf
    obtain ⟨-, hpar⟩ := (hiff r hr).mp (by simpa using hconf)
    rcases hbody.parents hinner r hr with h | ⟨r', hr', h⟩
    · rw [hpar] at h
      rcases hcontext with hc | hc <;> simp [← h] at hc
    · exact hnone r' hr' (h.symm.trans hpar)

/-- The text before the body of an at-rule. -/
def framesFront : Text := "@keyframes k\x7b"

/-- The body of the at-rule, with two blocks and a comment that holds a brace. -/
def framesBody : Text := "from\x7ba:b\x7d/*\x7d*/;x\x7by:z\x7d"

/-- The text behind the body, with a style rule. -/
def framesRest : Text := "\x7dd\x7b\x7d"

/-- The record of the at-rule. -/
def framesRecord : BlockRecord where
  start := 0
  stop := 12
  parent := .root
  context := .shielded
  atRule := some "keyframes"
  confined := false
  depth := 1

/-- The body of a block of keyframes with two blocks in it is copied as it stands, whatever follows
it. -/
theorem body_copied_frames : ∃ inner,
    framesRecord ∈ (scan ".ns" (framesFront ++ framesBody ++ framesRest)).blocks ∧
      framesRecord.context = .shielded ∧
        IsBody ".ns" framesFront framesBody framesRest framesRecord ∧
          (scan ".ns" (framesFront ++ framesBody)).blocks =
            (scan ".ns" framesFront).blocks ++ inner ∧
          inner.length = 2 ∧ (∀ r ∈ inner, r.context ≠ .container) ∧
            (∀ r ∈ inner, r.confined = false) ∧
              ∃ tail, scopeCss ".ns" (framesFront ++ framesBody ++ framesRest) =
                scopeCss ".ns" framesFront ++ framesBody ++ tail ∧
                  tail.head? = framesRest.head? := by
  have hb : framesRecord ∈ (scan ".ns" (framesFront ++ framesBody ++ framesRest)).blocks := by
    decide +kernel
  have hopens : Opens ".ns" [] "@keyframes k" framesRecord :=
    ⟨by decide +kernel, by decide +kernel⟩
  have hbody : IsBody ".ns" framesFront framesBody framesRest framesRecord :=
    isBody_of_inits hopens (by decide +kernel) (by decide +kernel)
  have hblocks : (scan ".ns" (framesFront ++ framesBody)).blocks =
      (scan ".ns" framesFront).blocks ++
        (scan ".ns" (framesFront ++ framesBody)).blocks.drop 1 := by
    decide +kernel
  have hcontainer : ∀ r ∈ (scan ".ns" (framesFront ++ framesBody)).blocks.drop 1,
      r.context ≠ .container := by
    decide +kernel
  obtain ⟨-, hnone, hcopied⟩ :=
    (body_copied hb (Or.inl rfl)).2 framesFront framesBody framesRest _ rfl hbody hblocks
  exact ⟨_, hb, rfl, hbody, hblocks, by decide +kernel, hcontainer, hnone hcontainer,
    hcopied (hnone hcontainer)⟩

/-! ## A body with a conditional at-rule -/

/-- The body of a style rule, with a conditional at-rule in it. -/
def printBody : Text := " @media print \x7b &:hover \x7b b: c; \x7d \x7d "

/-- The record of the style rule. -/
def printRecord : BlockRecord where
  start := 0
  stop := 7
  parent := .root
  context := .block
  atRule := none
  confined := true
  depth := 1

/-- A style rule whose body is rewritten. -/
theorem exists_body_rewritten : ∃ css before body rest b inner,
    b ∈ (scan ".ns" css).blocks ∧ b.context = .block ∧ css = before ++ body ++ rest ∧
      IsBody ".ns" before body rest b ∧
        (scan ".ns" (before ++ body)).blocks = (scan ".ns" before).blocks ++ inner ∧
          (∃ r ∈ inner, r.confined = true) ∧
            ¬ scopeCss ".ns" before ++ body <+: scopeCss ".ns" css := by
  refine ⟨".a \x7b".toList ++ printBody ++ ['}'], ".a \x7b", printBody, ['}'], printRecord,
    (scan ".ns" (".a \x7b".toList ++ printBody)).blocks.drop 1, by decide +kernel, rfl, rfl,
    ?_, by decide +kernel, by decide +kernel, by decide +kernel⟩
  have hopens : Opens ".ns" [] ".a " printRecord := ⟨by decide +kernel, by decide +kernel⟩
  exact isBody_of_inits hopens (by decide +kernel) (by decide +kernel)

end StyleSnippet.Css
