import Mathlib.Logic.Basic
import Mathlib.Tactic.Set
import Mathlib.Tactic.SplitIfs
import StyleSnippet.Yaml.Token.Lexer

/-!
# A document behind a line feed

Where a document stands does not matter to what it says. A place in it is lowered by one line when
a line feed is put in front of the document; its column stays. Every function that reads from a
place on reads the same from the lowered one, and goes on at a place that is lowered, too.
-/

set_option autoImplicit false

namespace StyleSnippet.Yaml

/-- What is read in two steps is lowered if it is in each of them. -/
theorem bind_map_of_comm {α α' β β' : Type} {lower : α → α'} {lower' : β → β'} (x : Option α)
    {read : α → Option β} {read' : α' → Option β'}
    (h : ∀ a, read' (lower a) = (read a).map lower') :
    (x.map lower).bind read' = (x.bind read).map lower' := by
  cases x with
  | none => rfl
  | some a => exact h a

/-! ## Places -/

namespace Cursor

variable (c : Cursor)

/-- The same place, with a line feed in front of the document. -/
def lower (c : Cursor) : Cursor := { c with index := c.index + 1, line := c.line + 1 }

/-- The rest of the text is the same behind a line feed. -/
@[simp] theorem lower_rest : c.lower.rest = c.rest := rfl

/-- The column is the same behind a line feed. -/
@[simp] theorem lower_column : c.lower.column = c.column := rfl

/-- Characters are skipped the same behind a line feed. -/
@[simp] theorem lower_skip (count : Nat) : c.lower.skip count = (c.skip count).lower := by
  simp [lower, skip, Nat.add_right_comm]

/-- A place further on is the same one behind a line feed. -/
@[simp] theorem lower_moveTo (rest : Text) : c.lower.moveTo rest = (c.moveTo rest).lower :=
  c.lower_skip _

/-- Characters of a sort are skipped the same behind a line feed. -/
@[simp] theorem lower_skipWhile (p : Char → Bool) :
    c.lower.skipWhile p = (c.skipWhile p).lower := c.lower_skip _

/-- A line end is skipped the same behind a line feed. -/
@[simp] theorem lower_lineEnd : c.lower.lineEnd = (c.lineEnd.1, c.lineEnd.2.lower) := by
  obtain ⟨rest, index, line, column⟩ := c
  simp only [lineEnd, lower]
  split
  · simp [Nat.add_right_comm]
  · split_ifs <;> simp [Nat.add_right_comm]
  · rfl

/-- The next character is the same behind a line feed. -/
@[simp] theorem lower_startsWith (x : Char) : c.lower.startsWith x = c.startsWith x := rfl

/-- The sort of the next character is the same behind a line feed. -/
@[simp] theorem lower_startsWithAny (p : Char → Bool) :
    c.lower.startsWithAny p = c.startsWithAny p := rfl

/-- A line ends at the same place behind a line feed. -/
@[simp] theorem lower_atLineEnd : c.lower.atLineEnd = c.atLineEnd := rfl

/-- The mark of a document stands at the same place behind a line feed. -/
@[simp] theorem lower_atDocumentMark (mark : Char) :
    c.lower.atDocumentMark mark = c.atDocumentMark mark := rfl

/-- A document ends at the same place behind a line feed. -/
@[simp] theorem lower_atDocumentEdge : c.lower.atDocumentEdge = c.atDocumentEdge := rfl

/-- A comment is skipped the same behind a line feed. -/
@[simp] theorem lower_skipComment : c.lower.skipComment = c.skipComment.lower := by
  rw [skipComment, skipComment, lower_startsWith]
  split
  · exact c.lower_skipWhile _
  · rfl

/-- The rest of a line is skipped the same behind a line feed. -/
@[simp] theorem lower_finishLine? : c.lower.finishLine? = c.finishLine?.map lower := by
  simp only [finishLine?, lower_skipWhile, lower_skipComment, lower_atLineEnd, lower_lineEnd]
  split <;> rfl

end Cursor

open Cursor

/-! ## Scalars -/

namespace Gap

/-- A gap in a scalar is read the same behind a line feed. -/
@[simp] theorem read?_lower (limit : Option Int) (fuel : Nat) (g : Gap) (c : Cursor) :
    read? limit fuel g c.lower = (read? limit fuel g c).map (Prod.map id lower) := by
  induction fuel generalizing g c with
  | zero => rfl
  | succ fuel ih =>
    rw [read?, read?, lower_rest]
    cases c.rest with
    | nil => rfl
    | cons x r =>
      simp only [lower_lineEnd, lower_skip, ih, apply_ite (Option.map _)]
      rfl

/-- A gap that starts here is the same behind a line feed. -/
@[simp] theorem ofCursor?_lower (limit : Option Int) (g : Gap) (c : Cursor) :
    ofCursor? limit g c.lower = (ofCursor? limit g c).map (Prod.map id lower) :=
  read?_lower _ _ _ _

end Gap

/-- The words of a plain scalar are the same behind a line feed. -/
@[simp] theorem plainWords?_lower (inFlow : Bool) (indent : Int) (fuel : Nat) (g : Gap)
    (c : Cursor) : plainWords? inFlow indent fuel g c.lower =
      (plainWords? inFlow indent fuel g c).map (Prod.map id (Prod.map id lower)) := by
  induction fuel generalizing g c with
  | zero => rfl
  | succ fuel ih =>
    simp only [plainWords?, lower_rest, apply_ite (Option.map _)]
    refine if_congr Iff.rfl rfl ?_
    cases plainWord? inFlow c.rest with
    | none => rfl
    | some p =>
      simp only [Option.bind_eq_bind, Option.bind_some, lower_moveTo, Gap.ofCursor?_lower,
        apply_ite (Option.map _)]
      refine if_congr Iff.rfl rfl (bind_map_of_comm _ fun q => ?_)
      simp only [Prod.map, id, ih, apply_ite (Option.map _)]
      exact if_congr Iff.rfl rfl (bind_map_of_comm _ fun _ => rfl)

/-- The words of a quoted scalar are the same behind a line feed. -/
@[simp] theorem quotedWords?_lower (single : Bool) (fuel : Nat) (c : Cursor) :
    quotedWords? single fuel c.lower = (quotedWords? single fuel c).map (Prod.map id lower) := by
  induction fuel generalizing c with
  | zero => rfl
  | succ fuel ih =>
    -- what is read behind a word, with an escaped line end in front or not
    have hbehind (word : Text) (start : Gap) (c : Cursor) :
        (if c.lower.startsWith (if single then '\'' else '"') then
            some (word, c.lower.skip 1)
          else (Gap.ofCursor? none start c.lower).bind fun g =>
            (quotedWords? single fuel g.2).bind fun p => some (word ++ g.1.text ++ p.1, p.2)) =
        (if c.startsWith (if single then '\'' else '"') then some (word, c.skip 1)
          else (Gap.ofCursor? none start c).bind fun g =>
            (quotedWords? single fuel g.2).bind fun p =>
              some (word ++ g.1.text ++ p.1, p.2)).map (Prod.map id lower) := by
      simp only [lower_skip, Gap.ofCursor?_lower, apply_ite (Option.map _)]
      refine if_congr Iff.rfl rfl (bind_map_of_comm _ fun g => ?_)
      simp only [Prod.map, id, ih]
      exact bind_map_of_comm _ fun _ => rfl
    by_cases hedge : (c.atDocumentEdge || c.rest.isEmpty) = true
    · have hedge' : (c.lower.atDocumentEdge || c.lower.rest.isEmpty) = true := hedge
      rw [quotedWords?, quotedWords?, if_pos hedge, if_pos hedge']
      rfl
    have hedge' : ¬ (c.lower.atDocumentEdge || c.lower.rest.isEmpty) = true := hedge
    rw [quotedWords?, quotedWords?, if_neg hedge, if_neg hedge', lower_rest]
    cases quotedWord? single c.rest with
    | none => rfl
    | some p =>
      simp only [Option.bind_eq_bind, Option.bind_some, lower_moveTo, lower_skip]
      by_cases hescape : (!single && (c.moveTo p.2).startsWith '\\') = true
      · have hescape' : (!single && (c.moveTo p.2).lower.startsWith '\\') = true := hescape
        simp only [if_pos hescape, if_pos hescape', lower_lineEnd]
        exact hbehind p.1 { broken := true } ((c.moveTo p.2).skip 1).lineEnd.2
      · have hescape' : ¬ (!single && (c.moveTo p.2).lower.startsWith '\\') = true := hescape
        simp only [if_neg hescape, if_neg hescape']
        exact hbehind p.1 {} (c.moveTo p.2)

/-- The marks of a block scalar are the same behind a line feed. -/
@[simp] theorem blockMarks?_lower (c : Cursor) :
    blockMarks? c.lower = (blockMarks? c).map (Prod.map id (Prod.map id lower)) := by
  have hcases (d : Cursor) (x : Char) : d.startsWith x = true ∨ d.startsWith x = false :=
    Bool.eq_false_or_eq_true _
  rcases hcases c '+' with hplus | hplus <;> rcases hcases c '-' with hminus | hminus <;>
    rcases hcases (c.skip 1) '+' with hplus' | hplus' <;>
    rcases hcases (c.skip 1) '-' with hminus' | hminus' <;>
    simp only [blockMarks?, lower_startsWith, lower_rest, lower_skip, hplus, hminus, hplus',
      hminus', Bool.false_eq_true, if_true, if_false] <;>
    split <;> rfl

/-- The empty lines of a block scalar are the same behind a line feed. -/
@[simp] theorem emptyLines?_lower (indent fuel : Nat) (c : Cursor) :
    emptyLines? indent fuel c.lower =
      (emptyLines? indent fuel c).map (Prod.map id (Prod.map id lower)) := by
  induction fuel generalizing c with
  | zero => rfl
  | succ fuel ih =>
    simp only [emptyLines?, lower_rest, lower_column, lower_skip, lower_lineEnd, ih,
      Option.bind_eq_bind, apply_ite (Option.map _)]
    set d := c.skip (if indent = 0 then (c.rest.takeWhile (· = ' ')).length
      else min (c.rest.takeWhile (· = ' ')).length (indent - c.column)) with hd
    cases emptyLines? indent fuel d.lineEnd.2 <;> rfl

/-- The lines of a block scalar are the same behind a line feed. -/
@[simp] theorem blockLines?_lower (folded : Bool) (chomp : Chomp) (indent fuel : Nat)
    (afterBlank : Bool) (first others : Text) (c : Cursor) :
    blockLines? folded chomp indent fuel afterBlank first others c.lower =
      (blockLines? folded chomp indent fuel afterBlank first others c).map (Prod.map id lower) := by
  induction fuel generalizing afterBlank first others c with
  | zero => rfl
  | succ fuel ih =>
    simp only [blockLines?, lower_rest, lower_skip, lower_lineEnd, lower_startsWithAny,
      emptyLines?_lower, Option.bind_eq_bind, apply_ite (Option.map _)]
    set d := (c.skip (c.rest.takeWhile (!isBreak ·)).length).lineEnd with hd
    refine if_congr Iff.rfl (bind_map_of_comm _ fun p => ?_) rfl
    simp only [Prod.map, id, ih]
    exact bind_map_of_comm _ fun _ => rfl

/-- A block scalar is the same behind a line feed. -/
@[simp] theorem blockScalar?_lower (folded : Bool) (indent : Int) (c : Cursor) :
    blockScalar? folded indent c.lower =
      (blockScalar? folded indent c).map (Prod.map id lower) := by
  simp only [blockScalar?, lower_skip, blockMarks?_lower, Option.bind_eq_bind]
  refine bind_map_of_comm _ fun p => ?_
  simp only [Prod.map, id, lower_finishLine?]
  refine bind_map_of_comm _ fun d => ?_
  simp only [lower_rest, emptyLines?_lower]
  refine bind_map_of_comm _ fun q => ?_
  simp only [Prod.map, id, lower_rest, blockLines?_lower]

end StyleSnippet.Yaml
