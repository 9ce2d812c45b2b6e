import StyleSnippet.Document.Body
import StyleSnippet.Proofs.Document.Identifier
import StyleSnippet.Proofs.Settings.Handout
import StyleSnippet.Proofs.Text.Lines
import StyleSnippet.Proofs.Text.Occurrence

/-!
# Bodies with cells

A body that is made of text without the start of a cell, and of cells behind it, is cut into just
these cells. What is left when the cells are handed out is the text between them, and the cells
that name no setting.
-/

set_option autoImplicit false

namespace StyleSnippet

open Text

namespace Cell

variable {id css : Text}

/-- The cell that a setting's CSS is written in. -/
def around (id css : Text) : Cell := { id := id, content := '\n' :: (css ++ ['\n']) }

/-- A cell is its CSS with line feeds around it, between its two marks. -/
theorem render_eq (id css : Text) : render id css = (around id css).written := rfl

/-- What is read at the start of a text: an id, and what stands between the marks up to the nearest
end of a cell. -/
theorem ofText?_eq_some_iff {c : Cell} {t rest : Text} : ofText? t = some (c, rest) ↔
    IsId c.id ∧ t = c.written ++ rest ∧ ¬ closing <:+: c.content ++ closing.dropLast := by
  have hclosing : closing ≠ [] := by decide
  constructor
  · intro h
    refine ⟨?_, eq_of_ofText? h, ?_⟩
    all_goals
      simp only [ofText?, Option.bind_eq_bind, Option.bind_eq_some_iff, Prod.exists,
        Option.ite_none_left_eq_some, Option.some.injEq, Prod.mk.injEq] at h
      obtain ⟨r, -, inside, -, content, rest', hcut, hne, rfl, rfl⟩ := h
    · exact ⟨by simpa using hne, fun x hx => List.mem_takeWhile_imp hx⟩
    · exact ((cutFirst?_eq_some_iff hclosing).mp hcut).2
  · obtain ⟨id, content⟩ := c
    rintro ⟨hid, rfl, hnearest⟩
    have hspace : isIdChar ' ' = false := by decide +kernel
    have hend (u : Text) : openingEnd ++ u = ' ' :: ("*/".toList ++ u) := rfl
    have htail : written ⟨id, content⟩ ++ rest =
        opening ++ (id ++ (openingEnd ++ (content ++ closing ++ rest))) := by
      simp [written]
    have htake : (id ++ (openingEnd ++ (content ++ closing ++ rest))).takeWhile isIdChar = id := by
      rw [List.takeWhile_append_of_pos hid.isIdChar, hend,
        List.takeWhile_cons_of_neg (by simp [hspace]), List.append_nil]
    have hdrop : (id ++ (openingEnd ++ (content ++ closing ++ rest))).dropWhile isIdChar =
        openingEnd ++ (content ++ closing ++ rest) := by
      rw [List.dropWhile_append_of_pos hid.isIdChar, hend,
        List.dropWhile_cons_of_neg (by simp [hspace])]
    have hcut : Text.cutFirst? closing (content ++ closing ++ rest) = some (content, rest) :=
      (cutFirst?_eq_some_iff hclosing).mpr ⟨rfl, hnearest⟩
    rw [htail, ofText?]
    simp only [after?_append, htake, hdrop, hcut, Option.bind_eq_bind, Option.bind_some]
    rw [if_neg (by simpa using hid.ne_nil)]

/-- A cell whose CSS does not hold the end of a cell is read back. -/
theorem ofText?_render (hid : IsId id) (hcss : ¬ closing <:+: css) (rest : Text) :
    ofText? (render id css ++ rest) = some (around id css, rest) := by
  refine ofText?_eq_some_iff.mpr ⟨hid, rfl, ?_⟩
  have hfeed : '\n' ∉ closing := by decide
  have hlines : (around id css).content ++ closing.dropLast =
      [] ++ '\n' :: (css ++ '\n' :: closing.dropLast) := by
    simp [around]
  rw [hlines, infix_append_cons hfeed, infix_append_cons hfeed]
  rintro (h | h | h)
  · exact absurd h (by decide)
  · exact hcss h
  · exact absurd h (by decide)

/-- A cell is found as it was written, whatever follows it. -/
theorem match?_render (hid : IsId id) (hcss : ¬ closing <:+: css) (rest : Text) :
    pattern.match? (render id css ++ rest) = some (around id css, render id css, rest) := by
  have hread := ofText?_render hid hcss rest
  rw [render_eq] at hread ⊢
  simp only [pattern, hread, Option.map_some]

/-- Whatever is read as a cell starts like one. -/
theorem marked : pattern.Marked '\n' (· = opening) := by
  refine ⟨?_, ?_, ?_⟩
  · rintro n rfl
    decide
  · rintro n rfl
    decide
  · intro t m h
    simp only [pattern, ofText?, Option.bind_eq_bind, Option.map_eq_some_iff,
      Option.bind_eq_some_iff] at h
    obtain ⟨-, ⟨r, hr, -⟩, -⟩ := h
    exact ⟨opening, rfl, r, (eq_append_of_after? hr).symm⟩

/-! ## Bodies of written cells -/

/-- Cells behind blank lines are read as such. -/
theorem split_flatMap_blankLine {ps : List (Text × Text)}
    (hps : ∀ p ∈ ps, IsId p.1 ∧ ¬ closing <:+: p.2) :
    pattern.split (ps.flatMap fun p => blankLine ++ render p.1 p.2) =
      (ps.map fun p => ⟨blankLine, around p.1 p.2, render p.1 p.2⟩, []) := by
  induction ps with
  | nil => rw [List.flatMap_nil, Pattern.split, List.map_nil]
  | cons p ps ih =>
    obtain ⟨hid, hcss⟩ := hps p (by simp)
    have hrest := ih fun q hq => hps q (List.mem_cons_of_mem p hq)
    have hlead (t : Text) : pattern.split (blankLine ++ t) =
        Pattern.prepend blankLine (pattern.split t) := by
      have hsep : blankLine ++ t = '\n' :: ('\n' :: t) := rfl
      rw [hsep, marked.split_cons, marked.split_cons]
      rfl
    rw [List.flatMap_cons, List.append_assoc, hlead,
      pattern.split_of_match (match?_render hid hcss _), hrest]
    simp

/-- A body of at most one piece of text without the start of a cell, and of cells behind it, is
read as these cells, and the text around them is that piece, white space aside. -/
theorem exists_split_intercalate {gs : List Text} {ps : List (Text × Text)}
    (hone : gs.length ≤ 1) (hg : ∀ g ∈ gs, ¬ opening <:+: g)
    (hps : ∀ p ∈ ps, IsId p.1 ∧ ¬ closing <:+: p.2) :
    ∃ os rest u,
      pattern.split (blankLine.intercalate (gs ++ ps.map fun p => render p.1 p.2)) = (os, rest) ∧
      os.map (·.value) = ps.map (fun p => around p.1 p.2) ∧
      os.flatMap (·.before) ++ rest = gs.flatten ++ u ∧ Blank u := by
  have hbetween (ps : List (Text × Text)) : Blank ((ps.map fun p =>
      (⟨blankLine, around p.1 p.2, render p.1 p.2⟩ : Occurrence Cell)).flatMap (·.before)) := by
    intro c hc
    simp only [List.flatMap_map, List.mem_flatMap] at hc
    obtain ⟨p, -, hp⟩ := hc
    exact blank_blankLine c hp
  have hflat (ps : List (Text × Text)) :
      (ps.map fun p => render p.1 p.2).flatMap (blankLine ++ ·) =
        ps.flatMap fun p => blankLine ++ render p.1 p.2 := by
    rw [List.flatMap_map]
  match gs, hone with
  | [], _ =>
    cases ps with
    | nil => exact ⟨[], [], [], by simp [List.intercalate, Pattern.split], rfl, rfl, blank_nil⟩
    | cons p ps =>
      -- the first cell has no blank line in front
      obtain ⟨hid, hcss⟩ := hps p (by simp)
      have hrest := split_flatMap_blankLine fun q hq => hps q (List.mem_cons_of_mem p hq)
      rw [List.nil_append, List.map_cons, intercalate_cons, hflat,
        pattern.split_of_match (match?_render hid hcss _), hrest]
      exact ⟨_, _, _, rfl, by simp, by simp, hbetween ps⟩
  | [g], _ =>
    have hg' : ∀ n, n = opening → ¬ n <:+: g := by simpa using hg
    have hrest := split_flatMap_blankLine hps
    cases ps with
    | nil => exact ⟨[], g, [], by simpa using marked.split_eq hg', rfl, by simp, blank_nil⟩
    | cons p ps =>
      rw [List.singleton_append, intercalate_cons, hflat]
      have hbehind := hbetween (p :: ps)
      rw [List.map_cons] at hbehind
      rw [marked.split_append hg' (flatMap_blankLine_cases _ _), hrest, List.map_cons,
        Pattern.prepend_cons]
      exact ⟨_, _, _, rfl, by simp, by simp, hbehind⟩

end Cell

/-! ## Cells handed out -/

namespace Body

open Setting

/-- The piece of CSS that a cell holds. -/
def cellPiece (o : Occurrence Cell) : Piece :=
  { accepts := fun s => s.id = o.value.id, css := Text.trim o.value.content }

/-- Which setting has the id of a cell does not depend on the CSS that is there already. -/
theorem formTest_cellPiece (o : Occurrence Cell) : FormTest (cellPiece o).accepts := fun _ => rfl

/-- Cells are handed out piece by piece. What is left is the text around them, and the cells that
name no setting. -/
theorem handOutCells_eq (settings : List Setting) (os : List (Occurrence Cell)) (rest : Text) :
    handOutCells settings (os, rest) =
      ⟨handOut settings (os.map cellPiece),
        os.flatMap (fun o => o.before ++ if owned settings (cellPiece o) then [] else o.written) ++
          rest⟩ := by
  induction os generalizing settings with
  | nil => simp [handOutCells, handOut]
  | cons o os ih =>
    rw [handOutCells]
    cases h : updateFirstOf? (fun s => s.id = o.value.id) (appendCss (Text.trim o.value.content))
        settings with
    | none =>
      have howned : owned settings (cellPiece o) = false := owned_eq_false_iff.mpr
        (updateFirstOf?_eq_none.mp h)
      have hone : handOut settings (cellPiece o :: os.map cellPiece) =
          handOut settings (os.map cellPiece) := by
        rw [handOut]
        simp only [cellPiece, h, Option.getD_none]
      simp [ih, hone, howned]
    | some settings' =>
      obtain ⟨hform, l₁, s, l₂, hl, -, hs, -⟩ := of_updateFirstOf? (appendCss_eq _) h
      have howned : owned settings (cellPiece o) = true := owned_iff.mpr ⟨s, by simp [hl], hs⟩
      have hone : handOut settings (cellPiece o :: os.map cellPiece) =
          handOut settings' (os.map cellPiece) := by
        rw [handOut]
        simp only [cellPiece, h, Option.getD_some]
      -- The form stays, and with it which of the other cells name a setting.
      have hleft : (os.flatMap fun o => o.before ++
            if owned settings' (cellPiece o) then [] else o.written) =
          os.flatMap fun o => o.before ++
            if owned settings (cellPiece o) then [] else o.written := by
        apply List.flatMap_congr
        intro o' _
        rw [owned_eq (formTest_cellPiece o') hform]
      simp [ih, hone, howned, hleft]

end Body

end StyleSnippet
