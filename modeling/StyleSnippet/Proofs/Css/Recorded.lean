import StyleSnippet.Proofs.Css.Nesting
import StyleSnippet.Proofs.Css.Render

/-!
# The record of the blocks

The records are compared with the braces that open blocks, in the stylesheet and in the output.
Each record comes from one such brace of the stylesheet, in order, and the places where the records
end are those of the braces in the output. The second half needs a class that no reader of CSS
takes notice of: with any other, the output could have more braces than blocks were opened.

A closing brace where no block is open leaves no trace in the records: the blocks behind it are
nested as they are on their own.
-/

set_option autoImplicit false

namespace StyleSnippet.Css

open Text

variable {scope s t : Text} {m : Mode} {stack : ContextStack} {b : BlockRecord} {c : Char}

/-! ## The braces of a text -/

/-- Where in a text that starts at a place and is read in a mode the braces stand that open blocks,
in bytes of UTF-8. -/
def Mode.bracesFrom (m : Mode) (k : Nat) : Text → List Nat
  | [] => []
  | c :: r =>
    if m.isCode && c = '{' then k :: (m.next c).bracesFrom (k + c.utf8Size) r
    else (m.next c).bracesFrom (k + c.utf8Size) r

/-- The braces of two texts, one behind the other. -/
theorem Mode.bracesFrom_append (m : Mode) (k : Nat) (s t : Text) : m.bracesFrom k (s ++ t) =
    m.bracesFrom k s ++ (m.after s).bracesFrom (k + utf8Length s) t := by
  induction s generalizing m k with
  | nil => rfl
  | cons c r ih =>
    rw [List.cons_append, bracesFrom, bracesFrom, ih, utf8Length_cons, Nat.add_assoc, after_cons]
    split <;> rfl

/-- The braces of a text with one more character. -/
theorem Mode.bracesFrom_concat (m : Mode) (k : Nat) (t : Text) (c : Char) :
    m.bracesFrom k (t ++ [c]) = m.bracesFrom k t ++
      if (m.after t).isCode = true ∧ c = '{' then [k + utf8Length t] else [] := by
  rw [bracesFrom_append, bracesFrom, bracesFrom]
  simp only [Bool.and_eq_true, decide_eq_true_eq]

/-- A brace opens a block wherever it is code. -/
theorem isBoundary_brace_iff (stack : ContextStack) :
    isBoundary stack m c = true ∧ c = '{' ↔ m.isCode = true ∧ c = '{' := by
  constructor <;> rintro ⟨h, rfl⟩ <;> simpa [isBoundary] using h

/-- Text without boundaries has none of these braces. -/
theorem Quiet.bracesFrom_eq (h : Quiet stack m t) (k : Nat) : m.bracesFrom k t = [] := by
  induction t generalizing m k with
  | nil => rfl
  | cons c r ih =>
    rw [Mode.bracesFrom, if_neg, ih h.2]
    rw [Bool.and_eq_true, decide_eq_true_eq, ← isBoundary_brace_iff stack, h.1]
    simp

/-- How many blocks are open behind a text that starts with some blocks open and is read in a mode.
A closing brace closes a block if one is open. -/
def Mode.depthFrom (m : Mode) (d : Nat) : Text → Nat
  | [] => d
  | c :: r =>
    if m.isCode && c = '{' then (m.next c).depthFrom (d + 1) r
    else if m.isCode && c = '}' then (m.next c).depthFrom (d - 1) r
    else (m.next c).depthFrom d r

/-- The depth behind two texts, one behind the other. -/
theorem Mode.depthFrom_append (m : Mode) (d : Nat) (s t : Text) :
    m.depthFrom d (s ++ t) = (m.after s).depthFrom (m.depthFrom d s) t := by
  induction s generalizing m d with
  | nil => rfl
  | cons c r ih =>
    rw [List.cons_append, depthFrom, depthFrom, after_cons]
    split
    · exact ih _ _
    · split <;> exact ih _ _

/-! ## The braces of the stylesheet -/

/-- The blocks that a scan has open are those that the braces leave open. -/
theorem depth_read (scope t : Text) :
    (Scan.read scope t).stack.depth = Mode.depthFrom .code 0 t := by
  induction t using List.reverseRecOn with
  | nil => rfl
  | append_singleton t c ih =>
    rw [Scan.read_concat, Scan.stack_step, Mode.depthFrom_append, ← Scan.mode_read scope t, ← ih,
      Mode.depthFrom, Mode.depthFrom, Mode.depthFrom, Mode.depthFrom]
    cases hm : (Scan.read scope t).mode.isCode with
    | false => simp [isBoundary, hm]
    | true =>
      by_cases hopen : c = '{'
      · simp [isBoundary, hm, hopen, stackAfter]
      · by_cases hclose : c = '}'
        · simp [isBoundary, hm, hclose, stackAfter]
        · simp [hopen, hclose, stackAfter]

/-- The brace at a place of the stylesheet opens the block. The range of the record is what was
written for the prelude, directly in front of the brace, and its depth counts the open blocks. -/
def RecordsBrace (scope css : Text) (k : Nat) (b : BlockRecord) : Prop :=
  ∃ before prelude rest tail, css = before ++ prelude ++ '{' :: rest ∧
    utf8Length (before ++ prelude) = k ∧ Opens scope before prelude b ∧
      scopeCss scope css = scopeCss scope before ++ b.writes scope prelude ++ '{' :: tail ∧
        b.start = utf8Length (scopeCss scope before) ∧
          b.stop = utf8Length (scopeCss scope before ++ b.writes scope prelude) ∧
            b.depth = Mode.depthFrom .code 0 (before ++ prelude) + 1

/-- A block that opens is recorded at its brace. -/
theorem Opens.recordsBrace {before prelude : Text} (h : Opens scope before prelude b)
    (rest : Text) : RecordsBrace scope (before ++ prelude ++ '{' :: rest)
      (utf8Length (before ++ prelude)) b := by
  obtain ⟨tail, htail⟩ := h.scopeCss_eq rest
  refine ⟨before, prelude, rest, tail, rfl, rfl, h, htail, h.start_eq, ?_, ?_⟩
  · rw [h.stop_eq, h.start_eq, utf8Length_append]
  · rw [h.record_eq.2, ← depth_read scope]
    rfl

/-- The braces of a stylesheet and the records of their blocks, one for each. -/
theorem forall₂_recordsBrace (scope s t : Text) :
    List.Forall₂ (RecordsBrace scope (s ++ t)) (Mode.bracesFrom .code 0 s)
      (scan scope s).blocks := by
  induction s using List.reverseRecOn generalizing t with
  | nil => exact .nil
  | append_singleton s c ih =>
    have hold := ih (c :: t)
    rw [List.append_assoc, List.singleton_append, Mode.bracesFrom_concat, Nat.zero_add,
      ← Scan.mode_read scope s, blocks_scan, Scan.read_concat, Scan.records_step]
    by_cases hb : (Scan.read scope s).mode.isCode = true ∧ c = '{'
    · have hboundary := (isBoundary_brace_iff (Scan.read scope s).stack).mpr hb
      rw [if_pos hb, if_pos hboundary, List.reverse_cons]
      obtain ⟨hboundary, rfl⟩ := hboundary
      obtain ⟨u, hu, -⟩ := Scan.exists_boundary scope s
      have hnew := (opens_record hu hboundary).recordsBrace t
      rw [← hu] at hnew
      exact List.rel_append hold (.cons hnew .nil)
    · rw [if_neg hb, if_neg (mt (isBoundary_brace_iff _).mp hb), List.append_nil]
      exact hold

/-- A record ends before what has been written. -/
theorem stop_lt_done (h : b ∈ (scan scope t).blocks) :
    b.stop < utf8Length (Scan.read scope t).done := by
  obtain ⟨before, prelude, rest, rfl, hopens⟩ := exists_opens h
  obtain ⟨d, hd⟩ := (Scan.suffix_read scope (before ++ prelude ++ ['{']) rest).1
  rw [List.append_assoc _ ['{']] at hd
  have hlength : utf8Length (Scan.read scope (before ++ prelude ++ ['{'])).done = b.stop + 1 := by
    rw [← utf8Length_reverse, hopens.done_eq, hopens.stop_eq, hopens.start_eq]
    simp only [utf8Length_append, utf8Length_cons, utf8Length_nil]
    rfl
  rw [List.singleton_append] at hd
  rw [← hd, utf8Length_append, hlength]
  omega

/-- The ranges of the records do not meet. -/
theorem pairwise_blocks (scope t : Text) :
    (scan scope t).blocks.Pairwise fun b b' => b.stop < b'.start := by
  rw [blocks_scan]
  induction t using List.reverseRecOn with
  | nil => exact .nil
  | append_singleton t c ih =>
    rw [Scan.read_concat, Scan.records_step]
    split
    · rw [List.reverse_cons, List.pairwise_append]
      refine ⟨ih, List.pairwise_singleton _ _, ?_⟩
      intro b hb b' hb'
      obtain rfl := List.mem_singleton.mp hb'
      exact stop_lt_done hb
    · exact ih

/-! ## The braces of the output -/

/-- What a scan has written, read again: it ends in code, and its braces are those of the
records. -/
structure Rereads (s : Scan) : Prop where
  after_done : Mode.after .code s.done.reverse = .code
  braces : Mode.bracesFrom .code 0 s.done.reverse = s.records.reverse.map (·.stop)

/-- What is written with one more character is read again as it was. -/
theorem Rereads.step (hs : ScopeClass scope) {s : Scan} (h : Rereads s)
    (hmode : s.mode = Mode.after .code s.prelude) (hprelude : Quiet s.stack .code s.prelude)
    (c : Char) : Rereads (s.step scope c) := by
  cases hb : isBoundary s.stack s.mode c with
  | false =>
    rw [Scan.step_of_not_isBoundary hb]
    exact ⟨h.after_done, h.braces⟩
  | true =>
    -- the class brings no boundary into the prelude and leaves its mode
    have hins := insertion_rewritten hs ⟨s.prelude, c, isConfined s.stack s.prelude c⟩
    have hquiet : Quiet s.stack .code (s.sentOn scope c) := hins.quiet hs hprelude
    have hafter : Mode.after .code (s.done.reverse ++ s.sentOn scope c) = s.mode := by
      rw [Mode.after_append, h.after_done, hmode]
      exact hins.after_eq hs
    have hbraces : Mode.bracesFrom .code 0 (s.done.reverse ++ s.sentOn scope c) =
        s.records.reverse.map (·.stop) := by
      rw [Mode.bracesFrom_append, h.after_done, hquiet.bracesFrom_eq, h.braces, List.append_nil]
    have hdone : (c :: ((s.sentOn scope c).reverse ++ s.done)).reverse =
        s.done.reverse ++ s.sentOn scope c ++ [c] := by simp
    rw [Scan.step_of_isBoundary hb]
    refine ⟨?_, ?_⟩
    · rw [hdone, Mode.after_append, hafter]
      exact next_of_isBoundary hb
    · rw [hdone, Mode.bracesFrom_concat, hafter, hbraces]
      by_cases hc : c = '{'
      · rw [if_pos ((isBoundary_brace_iff _).mp ⟨hb, hc⟩), if_pos hc, List.reverse_cons,
          List.map_append, Nat.zero_add, utf8Length_append, utf8Length_reverse, hc]
        rfl
      · rw [if_neg fun h => hc h.2, if_neg hc, List.append_nil]

/-- Whatever a scan has written is read again as it was. -/
theorem rereads_read (hs : ScopeClass scope) (t : Text) : Rereads (Scan.read scope t) := by
  induction t using List.reverseRecOn with
  | nil => exact ⟨rfl, rfl⟩
  | append_singleton t c ih =>
    rw [Scan.read_concat]
    exact ih.step hs (Scan.mode_eq_after_prelude scope t) (Scan.quiet_prelude scope t) c

/-- The records end where the braces of the output stand. -/
theorem map_stop_blocks (hs : ScopeClass scope) (css : Text) :
    (scan scope css).blocks.map (·.stop) = Mode.bracesFrom .code 0 (scopeCss scope css) := by
  have h := rereads_read hs css
  have hquiet := Scan.quiet_prelude scope css
  rw [scopeCss_eq_done, Mode.bracesFrom_append, h.after_done, hquiet.bracesFrom_eq, h.braces,
    List.append_nil, blocks_scan]

/-! ## Stray closing braces -/

/-- Where a block stands. -/
def BlockRecord.place (b : BlockRecord) : Nat × Context := (b.depth, b.parent)

/-- The scans open the same blocks, whatever they have written. -/
structure Scan.Alike (s₁ s₂ : Scan) : Prop where
  mode : s₁.mode = s₂.mode
  stack : s₁.stack = s₂.stack
  prelude : Css.Alike s₁.prelude s₂.prelude

namespace Scan.Alike

variable {s₁ s₂ : Scan}

/-- Scans that are alike are alike behind one more character. -/
theorem step (h : s₁.Alike s₂) (scope : Text) (c : Char) :
    (s₁.step scope c).Alike (s₂.step scope c) := by
  have hsame : isBoundary s₁.stack s₁.mode c = isBoundary s₂.stack s₂.mode c := by
    rw [h.mode, h.stack]
  cases hb : isBoundary s₂.stack s₂.mode c with
  | false =>
    rw [step_of_not_isBoundary hb, step_of_not_isBoundary (hsame.trans hb)]
    refine ⟨congrArg (·.next c) h.mode, h.stack, ?_⟩
    simpa [hold, Scan.prelude] using h.prelude.append (Relaid.refl [c])
  | true =>
    rw [step_of_isBoundary hb, step_of_isBoundary (hsame.trans hb)]
    refine ⟨rfl, ?_, .of_relaid .nil⟩
    rw [stackAfter, stackAfter, h.stack, h.prelude.atRule?_eq]

/-- A block that opens stands in the same place for both scans. -/
theorem place_record (h : s₁.Alike s₂) (scope : Text) :
    (s₁.record scope).place = (s₂.record scope).place := by
  simp only [BlockRecord.place, record, h.stack]

/-- What follows opens the same blocks in the same places. -/
theorem exists_later (h : s₁.Alike s₂) (scope t : Text) : ∃ later₁ later₂,
    (t.foldl (Scan.step scope) s₁).records = later₁ ++ s₁.records ∧
      (t.foldl (Scan.step scope) s₂).records = later₂ ++ s₂.records ∧
        later₁.map (·.place) = later₂.map (·.place) := by
  induction t generalizing s₁ s₂ with
  | nil => exact ⟨[], [], rfl, rfl, rfl⟩
  | cons c r ih =>
    obtain ⟨later₁, later₂, h₁, h₂, hplaces⟩ := ih (h.step scope c)
    rw [List.foldl_cons, List.foldl_cons, h₁, h₂, records_step, records_step, h.mode, h.stack]
    split
    · refine ⟨later₁ ++ [s₁.record scope], later₂ ++ [s₂.record scope], by simp, by simp, ?_⟩
      rw [List.map_append, List.map_append, hplaces, List.map_singleton, List.map_singleton,
        h.place_record]
    · exact ⟨later₁, later₂, rfl, rfl, hplaces⟩

end Scan.Alike

/-- Where nothing is open and nothing but white space is held back, what follows is nested as on its
own. -/
theorem Scan.Alike.blocks_append (h : (Scan.read scope s).Alike {}) (t : Text) : ∃ later,
    (scan scope (s ++ t)).blocks = (scan scope s).blocks ++ later ∧
      later.map (·.place) = (scan scope t).blocks.map (·.place) := by
  obtain ⟨later₁, later₂, h₁, h₂, hplaces⟩ := h.exists_later scope t
  have hread : Scan.read scope (s ++ t) = t.foldl (Scan.step scope) (Scan.read scope s) :=
    List.foldl_append
  have hlater : (Scan.read scope t).records = later₂ := h₂.trans (List.append_nil _)
  refine ⟨later₁.reverse, ?_, ?_⟩
  · rw [blocks_scan, blocks_scan, hread, h₁, List.reverse_append]
  · rw [blocks_scan, hlater, List.map_reverse, List.map_reverse, hplaces]

/-- At the top level, a closing brace ends what is held back, and nothing else. -/
theorem Scan.alike_stray (hmode : (Scan.read scope s).mode.isCode = true)
    (hdepth : (Scan.read scope s).stack.depth = 0) :
    (Scan.read scope (s ++ ['}'])).Alike {} := by
  have hb : isBoundary (Scan.read scope s).stack (Scan.read scope s).mode '}' = true := by
    simp [isBoundary, hmode]
  have hframes := List.length_eq_zero_iff.mp hdepth
  rw [Scan.read_concat, Scan.step_of_isBoundary hb]
  refine ⟨rfl, ?_, .of_relaid .nil⟩
  simp [stackAfter, ContextStack.pop, hframes]

/-- A scan that has no block open and holds back only white space is like a new one. -/
theorem Scan.alike_of_blank (hblank : Blank (Scan.read scope s).prelude)
    (hdepth : (Scan.read scope s).stack.depth = 0) : (Scan.read scope s).Alike {} := by
  refine ⟨?_, ?_, .of_blank hblank blank_nil⟩
  · rw [Scan.mode_eq_after_prelude, Mode.after_code_blank hblank]
  · exact congrArg ContextStack.mk (List.length_eq_zero_iff.mp hdepth)

/-! ## The record -/

/-- The records of a stylesheet are faithful to its braces and to those of the output. -/
structure FaithfulRecord (scope css : Text) : Prop where
  /-- The braces of the stylesheet that open blocks, and the records of these, in order. -/
  opened : List.Forall₂ (RecordsBrace scope css) (Mode.bracesFrom .code 0 css)
    (scan scope css).blocks
  /-- The braces of the output that open blocks stand directly behind the ranges of the records. -/
  written : (scan scope css).blocks.map (·.stop) = Mode.bracesFrom .code 0 (scan scope css).css
  /-- Each range ends before the next one starts. -/
  apart : (scan scope css).blocks.Pairwise fun b b' => b.stop < b'.start
  /-- The records tell how the blocks are nested. -/
  nested : ∀ earlier b later, (scan scope css).blocks = earlier ++ b :: later →
    Nested scope css earlier b
  /-- Behind a closing brace at the top level, blocks open in the places where they open in the
  text behind the brace alone. These are also their places without the brace, unless the brace ends
  a text that would then become part of a prelude. -/
  stray : ∀ s t, css = s ++ '}' :: t → (Mode.after .code s).isCode = true →
    Mode.depthFrom .code 0 s = 0 → ∃ later,
      (scan scope css).blocks = (scan scope s).blocks ++ later ∧
        later.map (·.place) = (scan scope t).blocks.map (·.place) ∧
          (Blank (Scan.read scope s).prelude →
            (scan scope (s ++ t)).blocks.map (·.place) = (scan scope css).blocks.map (·.place))

/-- A stylesheet with two closing braces too many, a brace in a comment and one in a string that
does not end. -/
def unbalanced : Text := "a:b\x7d@media p\x7b.é,i\x7b\x7d/*\x7b*/\x7d\x7d.b\x7b\".c\x7b"

end StyleSnippet.Css
