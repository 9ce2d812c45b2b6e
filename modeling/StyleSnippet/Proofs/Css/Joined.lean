import StyleSnippet.Proofs.Css.Reading

/-!
# Stylesheets one behind the other

A stylesheet that leaves no block open and ends at a boundary is complete: behind it, a scan goes on
as it would start, only that its output stands behind what has been written. So fragments of a
stylesheet can be confined one by one or all together.

`Scan.behind` puts the state of a scan behind what another one has done. Reading a character and
doing so can change places, whatever the two states are. A complete text is used only at the seam,
where its state has nothing but what has been done.
-/

set_option autoImplicit false

namespace StyleSnippet.Css

open Text

variable {scope s t : Text}

/-- The record of a block that opens behind more output, in bytes of UTF-8. -/
def BlockRecord.shift (k : Nat) (b : BlockRecord) : BlockRecord :=
  { b with start := b.start + k, stop := b.stop + k }

namespace Scan

/-- A scan behind what another one has done. -/
def behind (s₀ s : Scan) : Scan :=
  { s with
    done := s.done ++ s₀.done
    records := s.records.map (·.shift (utf8Length s₀.done)) ++ s₀.records }

variable (s₀ s : Scan) (scope : Text)

/-- What is held back does not depend on the other scan. -/
@[simp] theorem prelude_behind : (s₀.behind s).prelude = s.prelude := rfl

/-- The open blocks do not depend on the other scan. -/
@[simp] theorem stack_behind : (s₀.behind s).stack = s.stack := rfl

/-- The mode does not depend on the other scan. -/
@[simp] theorem mode_behind : (s₀.behind s).mode = s.mode := rfl

/-- What a boundary sends on does not depend on the other scan. -/
@[simp] theorem sentOn_behind (c : Char) : (s₀.behind s).sentOn scope c = s.sentOn scope c := rfl

/-- A block opens behind the output of the other scan, and is recorded as on its own otherwise. -/
theorem record_behind :
    (s₀.behind s).record scope = (s.record scope).shift (utf8Length s₀.done) := by
  have hstart : utf8Length (s₀.behind s).done = utf8Length s.done + utf8Length s₀.done :=
    utf8Length_append s.done s₀.done
  simp only [record, BlockRecord.shift, sentOn_behind, stack_behind, prelude_behind, hstart]
  rw [Nat.add_right_comm]

/-- A scan behind another one reads a character as on its own. -/
theorem step_behind (c : Char) : (s₀.behind s).step scope c = s₀.behind (s.step scope c) := by
  cases hb : isBoundary s.stack s.mode c with
  | false =>
    have hb' : isBoundary (s₀.behind s).stack (s₀.behind s).mode c = false := hb
    rw [step_of_not_isBoundary hb, step_of_not_isBoundary hb']
    rfl
  | true =>
    have hb' : isBoundary (s₀.behind s).stack (s₀.behind s).mode c = true := hb
    rw [step_of_isBoundary hb, step_of_isBoundary hb', sentOn_behind, record_behind, stack_behind,
      prelude_behind]
    by_cases hc : c = '{' <;> simp [behind, hc]

/-- A scan behind another one reads a text as on its own. -/
theorem foldl_step_behind (t : Text) :
    t.foldl (step scope) (s₀.behind s) = s₀.behind (t.foldl (step scope) s) := by
  induction t generalizing s with
  | nil => rfl
  | cons c r ih => rw [List.foldl_cons, List.foldl_cons, step_behind, ih]

end Scan

/-- A text at the end of which a scan is outside comments and strings, has no block open, and has
read nothing since the last boundary. -/
structure Complete (scope t : Text) : Prop where
  /-- No comment and no string literal is left open. -/
  code : (Scan.read scope t).mode.isCode = true
  /-- Every block is closed. -/
  closed : (Scan.read scope t).stack.depth = 0
  /-- Nothing stands behind the last boundary. -/
  held : (Scan.read scope t).prelude = []

namespace Complete

/-- Where a text is complete, only what has been done is left of it. -/
theorem read_eq (h : Complete scope s) : Scan.read scope s = (Scan.read scope s).behind {} := by
  have hmode := Scan.mode_eq_after_prelude scope s
  have hstack := List.length_eq_zero_iff.mp h.closed
  have hheld : (Scan.read scope s).held = [] := List.reverse_eq_nil_iff.mp h.held
  rw [h.held, Mode.after_nil] at hmode
  generalize Scan.read scope s = s₀ at hmode hstack hheld ⊢
  obtain ⟨done, held, mode, ⟨frames⟩, records⟩ := s₀
  subst hmode hstack hheld
  rfl

/-- Behind a complete text, a scan goes on as it starts. -/
theorem read_append (h : Complete scope s) (t : Text) :
    Scan.read scope (s ++ t) = (Scan.read scope s).behind (Scan.read scope t) := by
  have hread : Scan.read scope (s ++ t) = t.foldl (Scan.step scope) (Scan.read scope s) :=
    List.foldl_append
  rw [hread, h.read_eq, Scan.foldl_step_behind, ← h.read_eq]
  rfl

/-- All of a complete text has been written at its end. -/
theorem done_eq (h : Complete scope s) :
    (Scan.read scope s).done.reverse = scopeCss scope s := by
  rw [scopeCss_eq_done, h.held, List.append_nil]

end Complete

/-- A stylesheet behind a complete one is scanned as on its own: its output is put behind the other
output, and its records behind the other records, their ranges shifted by what was written. -/
theorem scan_append (h : Complete scope s) (t : Text) :
    scan scope (s ++ t) =
      { css := scopeCss scope s ++ scopeCss scope t
        blocks := (scan scope s).blocks ++
          (scan scope t).blocks.map (·.shift (utf8Length (scopeCss scope s))) } := by
  have hread := h.read_append t
  have hcss : (scan scope (s ++ t)).css = scopeCss scope s ++ scopeCss scope t := by
    have hwritten := scopeCss_eq_done scope (s ++ t)
    rw [hread, Scan.prelude_behind] at hwritten
    rw [← h.done_eq, scopeCss_eq_done scope t]
    exact hwritten.trans (by simp [Scan.behind])
  have hblocks : (scan scope (s ++ t)).blocks = (scan scope s).blocks ++
      (scan scope t).blocks.map (·.shift (utf8Length (scopeCss scope s))) := by
    rw [blocks_scan, blocks_scan, blocks_scan, hread, ← h.done_eq, utf8Length_reverse]
    simp [Scan.behind]
  rw [← hcss, ← hblocks]

/-- A statement, a block with a comment in it, and a conditional at-rule around a style rule. -/
def completeSheet : Text := "@import 'é;';.a/*\x7d*/\x7b;b\x7d@media c\x7b d\x7b\x7d\x7d"

/-- Two style rules, with a closing brace too many and one missing, and a comment that does not
end. -/
def laterSheet : Text := "\x7d.e,f\x7b\x7d g\x7b/*"

/-- A sheet behind a complete one is scanned as on its own, with blocks in both. -/
theorem scan_append_laterSheet : Complete ".ns" completeSheet ∧
    scan ".ns" (completeSheet ++ laterSheet) =
      { css := scopeCss ".ns" completeSheet ++ scopeCss ".ns" laterSheet
        blocks := (scan ".ns" completeSheet).blocks ++ (scan ".ns" laterSheet).blocks.map
          (·.shift (utf8Length (scopeCss ".ns" completeSheet))) } := by
  have h : Complete ".ns" completeSheet :=
    ⟨by decide +kernel, by decide +kernel, by decide +kernel⟩
  exact ⟨h, scan_append h laterSheet⟩

end StyleSnippet.Css
