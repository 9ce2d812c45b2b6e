import StyleSnippet.Proofs.Document.Gathered
import StyleSnippet.Proofs.Text.Leftmost

/-!
# What becomes of a body with cells

A body is cut at the leftmost cells, each of which reaches up to the nearest closing mark. The CSS
of a cell goes to the first setting, depth first, that has the id, and the cell is taken out of the
body. A cell that names no setting stays, marks and all, even if the mark of another cell stands in
it. What is left of the body is the global CSS.
-/

set_option autoImplicit false

namespace StyleSnippet

open Text

/-! ## Where a cell begins -/

namespace Cell

/-- The text begins with a cell, which is written as `w`: the mark with its id, and all that follows
up to the nearest end of a cell. -/
structure Begins (c : Cell) (w t : Text) : Prop where
  isId : IsId c.id
  written_eq : w = c.written
  isPrefix : w <+: t
  shortest : ∀ content, written ⟨c.id, content⟩ <+: t → c.content.length ≤ content.length

/-- A cell is found at the start of a text just if the text begins with it. -/
theorem begins_iff (t : Text) (c : Cell) (w : Text) :
    Begins c w t ↔ ∃ rest, pattern.match? t = some (c, w, rest) := by
  have hnearest (rest : Text) : ¬ closing <:+: c.content ++ closing.dropLast ↔
      ∀ content, written ⟨c.id, content⟩ <+: c.written ++ rest →
        c.content.length ≤ content.length := by
    have hsplit (content u : Text) : written ⟨c.id, content⟩ ++ u =
        (opening ++ c.id ++ openingEnd) ++ (content ++ closing ++ u) := by
      simp [written]
    rw [not_infix_dropLast_iff (t := rest) (by decide)]
    refine forall_congr' fun content => ?_
    have hself := hsplit c.content rest
    have hcontent := hsplit content []
    rw [List.append_nil, List.append_nil] at hcontent
    rw [hself, hcontent, List.prefix_append_right_inj]
  have hmatch (rest : Text) : pattern.match? t = some (c, w, rest) ↔
      ofText? t = some (c, rest) ∧ w = c.written := by
    simp only [pattern, Option.map_eq_some_iff, Prod.mk.injEq, Prod.exists]
    constructor
    · rintro ⟨c', rest', h, rfl, rfl, rfl⟩
      exact ⟨h, rfl⟩
    · rintro ⟨h, rfl⟩
      exact ⟨c, rest, h, rfl, rfl, rfl⟩
  constructor
  · rintro ⟨hid, rfl, ⟨rest, rfl⟩, hshort⟩
    exact ⟨rest, (hmatch rest).mpr
      ⟨ofText?_eq_some_iff.mpr ⟨hid, rfl, (hnearest rest).mpr hshort⟩, rfl⟩⟩
  · rintro ⟨rest, h⟩
    obtain ⟨hread, rfl⟩ := (hmatch rest).mp h
    obtain ⟨hid, rfl, hnear⟩ := ofText?_eq_some_iff.mp hread
    exact ⟨hid, rfl, List.prefix_append _ _, (hnearest rest).mp hnear⟩

/-- A cell starts and ends with ink. -/
theorem trimmed_written (c : Cell) : Trimmed c.written := by
  have hopening : Trimmed opening.dropLast :=
    .of_ends (c := '/') (d := ':') (by decide) (by decide) (by decide) (by decide)
  have hclosing : Trimmed closing :=
    .of_ends (c := '/') (d := '/') (by decide) (by decide) (by decide) (by decide)
  have hsplit : c.written =
      opening.dropLast ++ (' ' :: (c.id ++ openingEnd ++ c.content)) ++ closing := by
    have hopen : opening = opening.dropLast ++ [' '] := by decide
    rw [written, hopen]
    simp
  rw [hsplit]
  exact hopening.append hclosing (by decide) (by decide) _

end Cell

/-! ## Sharing out -/

namespace Body

open Setting

/-- A body that is shared out by its cells is cut at the leftmost of them. The CSS of a cell,
trimmed, goes to the first setting, depth first, that has the id, behind what the setting has. The
global CSS is what is left when the cells that name a setting are taken out of the body, and it is
trimmed; the other cells stay in it as they are. -/
theorem shareCells_conserves (settings : List Setting) (body : Text) : ∃ os tail,
    (∀ os' tail', Pattern.Cuts Cell.Begins body os' tail' ↔ os' = os ∧ tail' = tail) ∧
    Handed settings (os.map cellPiece) (shareCells settings body).settings ∧
    (shareCells settings body).globalCss = trim (os.flatMap (fun o =>
      o.before ++ if owned settings (cellPiece o) then [] else o.written) ++ tail) ∧
    ∀ o ∈ os, owned settings (cellPiece o) = false →
      o.written <:+: (shareCells settings body).globalCss := by
  obtain ⟨os, tail, hsplit⟩ : ∃ os tail, Cell.pattern.split body = (os, tail) := ⟨_, _, rfl⟩
  have hcuts (os' : List (Occurrence Cell)) (tail' : Text) :
      Pattern.Cuts Cell.Begins body os' tail' ↔ os' = (Cell.pattern.split body).1 ∧
        tail' = (Cell.pattern.split body).2 := Pattern.cuts_iff Cell.begins_iff
  have hhanded := handed_share .cell settings body
  have hglobal : (shareCells settings body).globalCss = trim (os.flatMap (fun o =>
      o.before ++ if owned settings (cellPiece o) then [] else o.written) ++ tail) := by
    rw [shareCells, hsplit, handOutCells_eq]
  rw [pieces, hsplit] at hhanded
  refine ⟨os, tail, by simpa only [hsplit] using hcuts, hhanded, hglobal, ?_⟩
  · intro o ho hfree
    have hmatch : ∃ t rest, Cell.pattern.match? t = some (o.value, o.written, rest) :=
      Cell.pattern.exists_match?_of_mem body o (by simpa [hsplit] using ho)
    obtain ⟨t, rest, hmatch⟩ := hmatch
    obtain ⟨-, hwritten, -, -⟩ := (Cell.begins_iff t o.value o.written).mpr ⟨rest, hmatch⟩
    have hleft : o.written <:+: os.flatMap (fun o =>
        o.before ++ if owned settings (cellPiece o) then [] else o.written) ++ tail := by
      have hkept : o.before ++ o.written ∈ os.map fun o =>
          o.before ++ if owned settings (cellPiece o) then [] else o.written :=
        List.mem_map.mpr ⟨o, ho, by simp [hfree]⟩
      rw [List.flatMap_def]
      exact (List.suffix_append o.before o.written).isInfix.trans
        ((List.infix_of_mem_flatten hkept).trans (List.prefix_append _ tail).isInfix)
    rw [hglobal]
    rw [hwritten] at hleft ⊢
    exact o.value.trimmed_written.infix_trim o.value.written_ne_nil hleft

end Body

end StyleSnippet
