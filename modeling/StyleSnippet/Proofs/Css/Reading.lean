import StyleSnippet.Proofs.Css.Scope

/-!
# What a scan has done when it has read a text

The state of a scan is followed here from text to text: `Scan.read` is the state behind a text, and
one more character either is held back or is a boundary that sends on what was held back. From
these two steps it follows that the output and the records only grow, and that the text held back
is what was read since the last boundary.

`Opens` tells a record from the text that was scanned: the brace behind two texts opens the block
of the record, and the second text is its prelude. Every record comes from such a place, and the
range that it names in the output is the prelude as it was written.
-/

set_option autoImplicit false

namespace StyleSnippet.Css

open Text

variable {scope s t : Text} {b : BlockRecord}

namespace Scan

/-- The state of a scan that has read a text. -/
def read (scope t : Text) : Scan := t.foldl (step scope) {}

/-- What a scan writes for the text held back when it meets a boundary. -/
def sentOn (scope : Text) (s : Scan) (c : Char) : Text :=
  if isConfined s.stack s.prelude c then prefixSelectors scope s.prelude else s.prelude

/-- The record of the block that a brace opens. -/
def record (scope : Text) (s : Scan) : BlockRecord where
  start := utf8Length s.done
  stop := utf8Length s.done + utf8Length (s.sentOn scope '{')
  parent := s.stack.current
  context := Context.ofPrelude (atRule? s.prelude)
  atRule := atRule? s.prelude
  confined := isConfined s.stack s.prelude '{'
  depth := s.stack.depth + 1

/-! ## One character -/

/-- A character that is no boundary is held back. -/
theorem step_of_not_isBoundary {s : Scan} {c : Char} (h : isBoundary s.stack s.mode c = false) :
    s.step scope c = s.hold c := by
  unfold step
  by_cases hm : s.mode.isCode = true
  · simp only [isBoundary, hm, Bool.true_and, Bool.or_eq_false_iff, decide_eq_false_iff_not,
      Bool.and_eq_false_imp, decide_eq_true_eq] at h
    obtain ⟨⟨hopen, hclose⟩, hsemi⟩ := h
    rw [if_pos hm, if_neg hopen, if_neg hclose, if_neg]
    rintro ⟨rfl, hscopes⟩
    simp [hsemi rfl] at hscopes
  · rw [if_neg hm]

/-- A boundary sends on what was held back, and a brace among the boundaries opens a block. -/
theorem step_of_isBoundary {s : Scan} {c : Char} (h : isBoundary s.stack s.mode c = true) :
    s.step scope c =
      { done := c :: ((s.sentOn scope c).reverse ++ s.done)
        held := []
        mode := .code
        stack := stackAfter s.stack s.prelude c
        records := if c = '{' then s.record scope :: s.records else s.records } := by
  have hnext := next_of_isBoundary h
  simp only [isBoundary, Bool.and_eq_true, Bool.or_eq_true, decide_eq_true_eq] at h
  obtain ⟨hm, hc⟩ := h
  unfold step
  rw [if_pos hm]
  by_cases hopen : c = '{'
  · subst hopen
    rw [if_pos rfl, openBlock, hnext]
    simp [sentOn, record, isConfined, stackAfter]
  · have hsent : s.sentOn scope c = s.prelude := by simp [sentOn, isConfined, hopen]
    by_cases hclose : c = '}'
    · subst hclose
      rw [if_neg hopen, if_pos rfl, closeBlock, flush, hnext, hsent]
      simp [stackAfter, prelude]
    · have hsemi : c = ';' ∧ s.stack.current.scopesSelectors = true := by
        rcases hc with (hc | hc) | hc
        · exact absurd hc hopen
        · exact absurd hc hclose
        · exact hc
      rw [if_neg hopen, if_neg hclose, if_pos hsemi, flush, hnext, hsent]
      simp [stackAfter, hopen, hclose, prelude]

/-- Text is copied, unless a brace opens a block that is confined. -/
theorem copied_step (scope : Text) {s : Scan} {c : Char}
    (h : isBoundary s.stack s.mode c = true → isConfined s.stack s.prelude c = false) :
    (s.step scope c).done.reverse ++ (s.step scope c).prelude =
      s.done.reverse ++ s.prelude ++ [c] := by
  cases hb : isBoundary s.stack s.mode c with
  | false =>
    rw [step_of_not_isBoundary hb]
    simp [hold, prelude]
  | true =>
    rw [step_of_isBoundary hb, sentOn, h hb]
    simp [prelude]

/-- The mode after one more character. -/
theorem mode_step (scope : Text) (s : Scan) (c : Char) :
    (s.step scope c).mode = s.mode.next c := by
  cases hb : isBoundary s.stack s.mode c with
  | false => rw [step_of_not_isBoundary hb, hold]
  | true => rw [step_of_isBoundary hb, next_of_isBoundary hb]

/-- The open blocks after one more character. -/
theorem stack_step (scope : Text) (s : Scan) (c : Char) : (s.step scope c).stack =
    if isBoundary s.stack s.mode c then stackAfter s.stack s.prelude c else s.stack := by
  cases hb : isBoundary s.stack s.mode c with
  | false => rw [step_of_not_isBoundary hb]; rfl
  | true => rw [step_of_isBoundary hb]; rfl

/-- The records after one more character. -/
theorem records_step (scope : Text) (s : Scan) (c : Char) : (s.step scope c).records =
    if isBoundary s.stack s.mode c ∧ c = '{' then s.record scope :: s.records else s.records := by
  cases hb : isBoundary s.stack s.mode c with
  | false => rw [step_of_not_isBoundary hb]; simp [hold]
  | true => rw [step_of_isBoundary hb]; simp

/-! ## A text -/

/-- A scan starts with nothing read. -/
@[simp] theorem read_nil (scope : Text) : read scope [] = {} := rfl

/-- A text is read character by character. -/
theorem read_concat (scope t : Text) (c : Char) :
    read scope (t ++ [c]) = (read scope t).step scope c := by
  rw [read, List.foldl_append]
  rfl

/-- The mode of a scan is that of the text, whatever the scan has done with it. -/
theorem mode_read (scope t : Text) : (read scope t).mode = Mode.after .code t := by
  induction t using List.reverseRecOn with
  | nil => rfl
  | append_singleton t c ih =>
    rw [read_concat, mode_step, ih, Mode.after_append]
    rfl

/-- The text held back is what was read since the last boundary. -/
theorem exists_boundary (scope t : Text) : ∃ u, t = u ++ (read scope t).prelude ∧
    read scope u = { read scope t with held := [], mode := .code } := by
  induction t using List.reverseRecOn with
  | nil => exact ⟨[], rfl, rfl⟩
  | append_singleton t c ih =>
    rw [read_concat]
    cases hb : isBoundary (read scope t).stack (read scope t).mode c with
    | false =>
      obtain ⟨u, ht, hu⟩ := ih
      rw [step_of_not_isBoundary hb]
      refine ⟨u, ?_, hu⟩
      conv_lhs => rw [ht]
      simp [hold, prelude]
    | true =>
      refine ⟨t ++ [c], ?_, ?_⟩
      · rw [step_of_isBoundary hb]
        exact (List.append_nil _).symm
      · rw [read_concat, step_of_isBoundary hb]

/-- The text held back is read from code. -/
theorem mode_eq_after_prelude (scope t : Text) :
    (read scope t).mode = Mode.after .code (read scope t).prelude := by
  obtain ⟨u, ht, hu⟩ := exists_boundary scope t
  have hcode : Mode.after .code u = .code := by rw [← mode_read scope u, hu]
  rw [mode_read]
  conv_lhs => rw [ht, Mode.after_append, hcode]

/-- No boundary cuts the text held back. -/
theorem quiet_prelude (scope t : Text) : Quiet (read scope t).stack .code (read scope t).prelude := by
  induction t using List.reverseRecOn with
  | nil => trivial
  | append_singleton t c ih =>
    rw [read_concat]
    cases hb : isBoundary (read scope t).stack (read scope t).mode c with
    | false =>
      have hprelude : ((read scope t).hold c).prelude = (read scope t).prelude ++ [c] := by
        simp [hold, prelude]
      rw [step_of_not_isBoundary hb, hprelude]
      rw [mode_eq_after_prelude] at hb
      exact quiet_append.mpr ⟨ih, hb, trivial⟩
    | true =>
      rw [step_of_isBoundary hb]
      trivial

/-- What is read behind a text that ends in the text held back starts from the boundary before. -/
theorem read_of_prelude (h : (read scope (s ++ t)).prelude = t) :
    read scope s = { read scope (s ++ t) with held := [], mode := .code } := by
  obtain ⟨u, hu, hread⟩ := exists_boundary scope (s ++ t)
  rw [h] at hu
  obtain rfl := List.append_cancel_right hu
  exact hread

/-! ## Growth -/

/-- Output and records only grow. -/
theorem suffix_read (scope s t : Text) : (read scope s).done <:+ (read scope (s ++ t)).done ∧
    (read scope s).records <:+ (read scope (s ++ t)).records := by
  induction t using List.reverseRecOn with
  | nil => simp
  | append_singleton t c ih =>
    rw [← List.append_assoc, read_concat]
    refine ⟨ih.1.trans ?_, ih.2.trans ?_⟩
    · cases hb : isBoundary (read scope (s ++ t)).stack (read scope (s ++ t)).mode c with
      | false => rw [step_of_not_isBoundary hb, hold]
      | true =>
        rw [step_of_isBoundary hb]
        exact ⟨c :: ((read scope (s ++ t)).sentOn scope c).reverse, by simp⟩
    · rw [records_step]
      split
      · exact List.suffix_cons _ _
      · exact List.suffix_refl _

/-- The text held back only grows at its end, or starts anew behind a boundary. -/
theorem suffix_prelude (scope s t : Text) :
    (read scope (s ++ t)).prelude <:+ (read scope s).prelude ++ t := by
  induction t using List.reverseRecOn with
  | nil => simp
  | append_singleton t c ih =>
    rw [← List.append_assoc, read_concat]
    cases hb : isBoundary (read scope (s ++ t)).stack (read scope (s ++ t)).mode c with
    | false =>
      obtain ⟨w, hw⟩ := ih
      rw [step_of_not_isBoundary hb, ← List.append_assoc, ← hw]
      exact ⟨w, by simp [hold, prelude]⟩
    | true =>
      rw [step_of_isBoundary hb]
      exact List.nil_suffix

/-- What is held back behind a boundary starts behind it. -/
theorem length_lt_of_isBoundary {s' t' : Text} {c : Char}
    (hb : isBoundary (read scope s).stack (read scope s).mode c = true)
    (hheld : (read scope (s' ++ t')).prelude = t') (hpre : s ++ [c] <+: s' ++ t') :
    s.length < s'.length := by
  obtain ⟨w, hw⟩ := hpre
  have hnil : (read scope (s ++ [c])).prelude = [] := by
    rw [read_concat, step_of_isBoundary hb]
    rfl
  have hsuffix := suffix_prelude scope (s ++ [c]) w
  rw [hw, hheld, hnil, List.nil_append] at hsuffix
  have hle := hsuffix.length_le
  have hlength := congrArg List.length hw
  simp only [List.length_append, List.length_singleton] at hlength
  omega

end Scan

/-- The blocks are those recorded, in order. -/
theorem blocks_scan (scope t : Text) :
    (scan scope t).blocks = (Scan.read scope t).records.reverse :=
  rfl

/-- What is written at the end of a text is what was written before it and the text held back. -/
theorem scopeCss_eq_done (scope t : Text) :
    scopeCss scope t = (Scan.read scope t).done.reverse ++ (Scan.read scope t).prelude := by
  simp [scopeCss, scan, Scan.finish, Scan.prelude, Scan.read]

/-- What was written before the text held back is written whatever follows. -/
theorem done_isPrefix (scope s t : Text) :
    (Scan.read scope s).done.reverse <+: scopeCss scope (s ++ t) := by
  rw [scopeCss_eq_done]
  exact (List.reverse_prefix.mpr (Scan.suffix_read scope s t).1).trans (List.prefix_append _ _)

/-- The records of a text come first, whatever follows. -/
theorem blocks_isPrefix (scope s t : Text) :
    (scan scope s).blocks <+: (scan scope (s ++ t)).blocks :=
  List.reverse_prefix.mpr (Scan.suffix_read scope s t).2

/-! ## The blocks of a stylesheet -/

/-- What is written for the prelude of a block. -/
def BlockRecord.writes (scope : Text) (b : BlockRecord) (prelude : Text) : Text :=
  if b.confined then prefixSelectors scope prelude else prelude

/-- The brace behind two texts opens a block, and the second text is its prelude. -/
structure Opens (scope before prelude : Text) (b : BlockRecord) : Prop where
  held : (Scan.read scope (before ++ prelude)).prelude = prelude
  opened : (scan scope (before ++ prelude ++ ['{'])).blocks =
    (scan scope (before ++ prelude)).blocks ++ [b]

namespace Opens

variable {before prelude : Text}

/-- Only a brace that is a boundary opens a block, and its record tells of the state before it. -/
theorem record_eq (h : Opens scope before prelude b) :
    isBoundary (Scan.read scope (before ++ prelude)).stack
        (Scan.read scope (before ++ prelude)).mode '{' = true ∧
      b = (Scan.read scope (before ++ prelude)).record scope := by
  have hopened := h.opened
  rw [blocks_scan, blocks_scan, Scan.read_concat] at hopened
  cases hb : isBoundary (Scan.read scope (before ++ prelude)).stack
      (Scan.read scope (before ++ prelude)).mode '{' with
  | false =>
    simp [Scan.records_step, hb] at hopened
  | true =>
    refine ⟨rfl, ?_⟩
    simpa [Scan.records_step, hb] using hopened.symm

/-- A block is confined just if its prelude writes no at-rule and stands where style rules are
written. -/
theorem confined_iff (h : Opens scope before prelude b) :
    b.confined = true ↔ b.atRule = none ∧ b.parent.scopesSelectors = true := by
  rw [h.record_eq.2]
  simp [Scan.record, isConfined, Option.isNone_iff_eq_none]

/-- The record has the name of the at-rule that the prelude writes. -/
theorem atRule_eq (h : Opens scope before prelude b) : b.atRule = atRule? prelude := by
  rw [h.record_eq.2, Scan.record, h.held]

/-- The code of a prelude holds no opening brace. -/
theorem brace_not_mem (h : Opens scope before prelude b) : '{' ∉ codeOnly prelude := by
  have hquiet := Scan.quiet_prelude scope (before ++ prelude)
  rw [h.held] at hquiet
  rw [codeOnly_eq]
  exact hquiet.brace_not_mem

/-- The context of the body is told by the name of the at-rule. -/
theorem context_eq (h : Opens scope before prelude b) :
    b.context = Context.ofPrelude b.atRule := by
  rw [h.record_eq.2]
  rfl

/-- The brace sends on the prelude of the block as it is written. -/
theorem sentOn_eq (h : Opens scope before prelude b) :
    (Scan.read scope (before ++ prelude)).sentOn scope '{' = b.writes scope prelude := by
  rw [Scan.sentOn, BlockRecord.writes, h.record_eq.2, h.held, Scan.record, h.held]

/-- What has been written up to the brace. -/
theorem done_eq (h : Opens scope before prelude b) :
    (Scan.read scope (before ++ prelude ++ ['{'])).done.reverse =
      scopeCss scope before ++ b.writes scope prelude ++ ['{'] := by
  rw [Scan.read_concat, Scan.step_of_isBoundary h.record_eq.1, h.sentOn_eq, scopeCss_eq_done,
    Scan.read_of_prelude h.held]
  simp [Scan.prelude]

/-- The prelude starts where the stylesheet in front of it ends. -/
theorem start_eq (h : Opens scope before prelude b) :
    b.start = utf8Length (scopeCss scope before) := by
  rw [scopeCss_eq_done, Scan.read_of_prelude h.held, h.record_eq.2]
  simp [Scan.record, Scan.prelude, utf8Length_reverse]

/-- The prelude ends behind what is written for it. -/
theorem stop_eq (h : Opens scope before prelude b) :
    b.stop = b.start + utf8Length (b.writes scope prelude) := by
  rw [← h.sentOn_eq, h.record_eq.2]
  rfl

/-- The prelude of a block and its brace in the output. -/
theorem scopeCss_eq (h : Opens scope before prelude b) (rest : Text) : ∃ tail,
    scopeCss scope (before ++ prelude ++ '{' :: rest) =
      scopeCss scope before ++ b.writes scope prelude ++ '{' :: tail := by
  have hout := done_isPrefix scope (before ++ prelude ++ ['{']) rest
  rw [h.done_eq] at hout
  obtain ⟨tail, htail⟩ := hout
  rw [List.append_assoc _ ['{'], List.append_assoc _ ['{']] at htail
  exact ⟨tail, htail.symm⟩

/-- The range that a record names in the output is the prelude as it was written. -/
theorem prelude?_eq (h : Opens scope before prelude b) (rest : Text) :
    (scan scope (before ++ prelude ++ '{' :: rest)).prelude? b =
      some (b.writes scope prelude) := by
  obtain ⟨tail, htail⟩ := h.scopeCss_eq rest
  have hcss : (scan scope (before ++ prelude ++ '{' :: rest)).css =
      scopeCss scope before ++ b.writes scope prelude ++ ('{' :: tail) := htail
  rw [Scanned.prelude?, hcss, h.stop_eq, h.start_eq, slice?_append]

end Opens

/-- A brace that is a boundary opens a block. -/
theorem opens_record {u : Text} (ht : t = u ++ (Scan.read scope t).prelude)
    (hb : isBoundary (Scan.read scope t).stack (Scan.read scope t).mode '{' = true) :
    Opens scope u (Scan.read scope t).prelude ((Scan.read scope t).record scope) := by
  refine ⟨by rw [← ht], ?_⟩
  rw [← ht, blocks_scan, blocks_scan, Scan.read_concat, Scan.records_step, if_pos ⟨hb, rfl⟩,
    List.reverse_cons]

/-- Every record comes from a brace that opens its block, behind those of the records before. -/
theorem exists_opens_of_blocks_eq {css : Text} {l r : List BlockRecord}
    (h : (scan scope css).blocks = l ++ b :: r) : ∃ before prelude rest,
    css = before ++ prelude ++ '{' :: rest ∧ Opens scope before prelude b ∧
      (scan scope (before ++ prelude)).blocks = l := by
  rw [blocks_scan] at h
  induction css using List.reverseRecOn generalizing r with
  | nil => simp at h
  | append_singleton t c ih =>
    have hold {r : List BlockRecord} (h : (Scan.read scope t).records.reverse = l ++ b :: r) :
        ∃ before prelude rest, t ++ [c] = before ++ prelude ++ '{' :: rest ∧
          Opens scope before prelude b ∧ (scan scope (before ++ prelude)).blocks = l := by
      obtain ⟨before, prelude, rest, rfl, hopens, hl⟩ := ih h
      exact ⟨before, prelude, rest ++ [c], by simp, hopens, hl⟩
    rw [Scan.read_concat, Scan.records_step] at h
    split at h
    · next hb =>
      obtain ⟨hb, rfl⟩ := hb
      rw [List.reverse_cons] at h
      rcases List.eq_nil_or_concat' r with rfl | ⟨r, x, rfl⟩
      · obtain ⟨hl, hrecord⟩ := List.append_inj' h rfl
        obtain rfl := List.singleton_inj.mp hrecord
        obtain ⟨u, hu, -⟩ := Scan.exists_boundary scope t
        refine ⟨u, (Scan.read scope t).prelude, [], by rw [← hu], opens_record hu hb, ?_⟩
        rw [← hu, blocks_scan, hl]
      · rw [← List.cons_append, ← List.append_assoc] at h
        exact hold (List.append_inj' h rfl).1
    · exact hold h

/-- Every record is that of a brace of the stylesheet. -/
theorem exists_opens {css : Text} (h : b ∈ (scan scope css).blocks) : ∃ before prelude rest,
    css = before ++ prelude ++ '{' :: rest ∧ Opens scope before prelude b := by
  obtain ⟨l, r, hblocks⟩ := List.append_of_mem h
  obtain ⟨before, prelude, rest, hcss, hopens, -⟩ := exists_opens_of_blocks_eq hblocks
  exact ⟨before, prelude, rest, hcss, hopens⟩

end StyleSnippet.Css
