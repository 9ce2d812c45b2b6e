import StyleSnippet.Css.Layout
import StyleSnippet.Proofs.Text.Lines

/-!
# What indenting a stylesheet keeps

A stylesheet that is indented has the same lines as before, apart from the white space around
them and from blank lines. Everything else follows: indenting twice is indenting once, the
result is trimmed, and no text on one line appears that was not there.
-/

set_option autoImplicit false

namespace StyleSnippet.Css

open Text

/-! ## Lines -/

/-- The carriage return at the end of a line is white space. -/
theorem trim_dropReturn (line : Text) : trim (dropReturn line) = trim line := by
  unfold dropReturn
  split
  · next h =>
    have hne : line ≠ [] := by
      rintro rfl
      simp at h
    have hlast : line.getLast hne = '\r' := by
      rw [List.getLast?_eq_some_getLast hne] at h
      simpa using h
    have hblank : Blank ['\r'] := by
      rw [blank_cons]
      exact ⟨by decide, blank_nil⟩
    conv_rhs => rw [← List.dropLast_append_getLast hne, hlast]
    rw [trim_append_blank hblank]
  · rfl

/-- The lines that are not blank are the pieces between line feeds, trimmed. -/
theorem inkedLines_eq (t : Text) :
    inkedLines t = ((pieces t).map trim).filter fun line => !line.isEmpty := by
  have hmap (l : List Text) : (l.map dropReturn).map trim = l.map trim := by
    rw [List.map_map]
    apply List.map_congr_left
    intro line _
    exact trim_dropReturn line
  obtain ⟨l, last, hl⟩ : ∃ l last, pieces t = l ++ [last] :=
    ⟨_, _, (List.dropLast_append_getLast (pieces_ne_nil t)).symm⟩
  rw [inkedLines, lines, hl, List.getLast?_concat, List.dropLast_concat]
  cases last with
  | nil => simp [hmap]
  | cons c r => rw [List.map_append, List.map_append, hmap]

/-- A line that is not blank: it is trimmed, has no line feed, and occurs in the text. -/
theorem of_mem_inkedLines {t line : Text} (h : line ∈ inkedLines t) :
    line ≠ [] ∧ Trimmed line ∧ '\n' ∉ line ∧ line <:+: t := by
  rw [inkedLines_eq, List.mem_filter, List.mem_map] at h
  obtain ⟨⟨p, hp, rfl⟩, hne⟩ := h
  refine ⟨by simpa using hne, trimmed_trim p, ?_, (isInfix_trim p).trans (infix_of_mem_pieces hp)⟩
  intro hn
  exact not_mem_of_mem_pieces hp ((isInfix_trim p).subset hn)

/-- A text without a line that is not blank is blank. -/
theorem inkedLines_eq_nil_iff {t : Text} : inkedLines t = [] ↔ Blank t := by
  rw [inkedLines_eq, List.filter_eq_nil_iff]
  constructor
  · intro h
    rw [← intercalate_pieces t]
    have hall : ∀ p ∈ pieces t, Blank p := by
      intro p hp
      have := h (trim p) (List.mem_map_of_mem hp)
      simpa [trim_eq_nil_iff] using this
    intro c hc
    by_cases hn : c = '\n'
    · rw [hn]; decide
    · obtain ⟨p, hp, hcp⟩ := infix_intercalate (n := [c]) (by simp) (by simp)
        (by simpa using Ne.symm hn) ((List.singleton_infix_iff c _).mpr hc)
      exact hall p hp c (hcp.subset (by simp))
  · intro h line hline
    obtain ⟨p, hp, rfl⟩ := List.mem_map.mp hline
    have hb : Blank p := fun c hc => h c ((infix_of_mem_pieces hp).subset hc)
    simpa using trim_eq_nil_iff.mpr hb

/-! ## Indentation -/

/-- The indentation of a line is made of spaces. -/
theorem eq_space_of_mem_indentation {c : Char} {k : Nat}
    (h : c ∈ (List.replicate k indentUnit).flatten) : c = ' ' := by
  obtain ⟨u, hu, hc⟩ := List.mem_flatten.mp h
  rw [List.eq_of_mem_replicate hu] at hc
  simpa [indentUnit] using hc

/-- Indentation is white space. -/
theorem blank_indentation (k : Nat) : Blank (List.replicate k indentUnit).flatten := by
  intro c hc
  rw [eq_space_of_mem_indentation hc]
  decide

/-- Trimming takes the indentation away. -/
@[simp] theorem trim_indent (k : Nat) (line : Text) : trim (indent k line) = trim line :=
  trim_blank_append (blank_indentation k) line

/-- The braces that open blocks are among the braces. -/
theorem BraceCount.opens_ofText_le (ic : Bool) (t : Text) :
    (BraceCount.ofText ic t).opens ≤ t.count '{' := by
  suffices h : ∀ b : BraceCount, (t.foldl step b).opens ≤ b.opens + t.count '{' by
    simpa [ofText] using h { mode := if ic then .comment else .code }
  intro b
  induction t generalizing b with
  | nil => exact le_rfl
  | cons c r ih =>
    have hstep : (b.step c).opens ≤ b.opens + if c = '{' then 1 else 0 := by
      simp only [step]
      split <;> split <;> simp_all
    have hrest := ih (b.step c)
    rw [List.foldl_cons, List.count_cons]
    simp only [beq_iff_eq]
    omega

/-- An indented line is a line behind an indentation, which is at most as deep as braces stand in
the lines before it. -/
theorem exists_of_indentLines_eq {d : Nat} {ic : Bool} {ls before after : List Text} {x : Text}
    (h : indentLines d ic ls = before ++ x :: after) :
    ∃ k, ∃ line ∈ ls, x = indent k line ∧ k ≤ d + before.flatten.count '{' := by
  induction ls generalizing d ic before with
  | nil => simp [indentLines] at h
  | cons line rest ih =>
    rw [indentLines] at h
    cases before with
    | nil =>
      have hlevel : lineLevel d ic line ≤ d := by
        unfold lineLevel
        split <;> omega
      obtain ⟨rfl, -⟩ := List.cons.inj h
      exact ⟨_, line, by simp, rfl, by simpa using hlevel⟩
    | cons y before =>
      obtain ⟨rfl, hrest⟩ := List.cons.inj h
      obtain ⟨k, l, hl, hx, hk⟩ := ih hrest
      have hopens := BraceCount.opens_ofText_le ic line
      refine ⟨k, l, List.mem_cons_of_mem line hl, hx, ?_⟩
      rw [List.flatten_cons, List.count_append, indent, List.count_append]
      omega

/-- An indented line is one of the lines, at some level. -/
theorem exists_of_mem_indentLines {d : Nat} {ic : Bool} {ls : List Text} {x : Text}
    (h : x ∈ indentLines d ic ls) : ∃ k, ∃ line ∈ ls, x = indent k line := by
  obtain ⟨before, after, hsplit⟩ := List.append_of_mem h
  obtain ⟨k, line, hl, hx, -⟩ := exists_of_indentLines_eq hsplit
  exact ⟨k, line, hl, hx⟩

/-- Trimming indented lines gives the lines back. -/
theorem map_trim_indentLines (d : Nat) (ic : Bool) {ls : List Text} (h : ∀ l ∈ ls, Trimmed l) :
    (indentLines d ic ls).map trim = ls := by
  induction ls generalizing d ic with
  | nil => rfl
  | cons line rest ih =>
    rw [indentLines, List.map_cons, ih _ _ fun l hl => h l (List.mem_cons_of_mem line hl),
      trim_indent, (h line (by simp)).trim_eq]

/-- Lines that are indented are still there. -/
theorem indentLines_ne_nil {d : Nat} {ic : Bool} {ls : List Text} (h : ls ≠ []) :
    indentLines d ic ls ≠ [] := by
  cases ls with
  | nil => exact absurd rfl h
  | cons line rest => simp [indentLines]

/-- The last of some lines is indented in its place. -/
theorem indentLines_concat (d : Nat) (ic : Bool) (l : List Text) (last : Text) :
    ∃ ls k, indentLines d ic (l ++ [last]) = ls ++ [indent k last] := by
  induction l generalizing d ic with
  | nil => exact ⟨[], lineLevel d ic last, rfl⟩
  | cons a l ih =>
    obtain ⟨ls, k, h⟩ := ih (d + (BraceCount.ofText ic a).opens - (BraceCount.ofText ic a).closes)
      (BraceCount.ofText ic a).mode.isComment
    exact ⟨indent (lineLevel d ic a) a :: ls, k, by rw [List.cons_append, indentLines, h]; rfl⟩

/-! ## The indented stylesheet -/

/-- The lines of the result are the inked lines, indented. -/
theorem formatBlock_eq (t : Text) :
    formatBlock t = List.intercalate ['\n'] (indentLines 0 false (inkedLines t)) := rfl

/-- The lines of an indented stylesheet are the indented lines. -/
theorem lines_formatBlock (t : Text) :
    lines (formatBlock t) = indentLines 0 false (inkedLines t) := by
  have hline : ∀ x ∈ indentLines 0 false (inkedLines t),
      x ≠ [] ∧ '\n' ∉ x ∧ x.getLast? ≠ some '\r' := by
    intro x hx
    obtain ⟨k, line, hl, rfl⟩ := exists_of_mem_indentLines hx
    obtain ⟨hne, htrim, hfeed, -⟩ := of_mem_inkedLines hl
    refine ⟨List.append_ne_nil_of_right_ne_nil _ hne, ?_, ?_⟩
    · rw [indent, List.mem_append, not_or]
      refine ⟨?_, hfeed⟩
      intro hn
      exact absurd (eq_space_of_mem_indentation hn) (by decide)
    · rw [indent, List.getLast?_append_of_ne_nil _ hne]
      intro hreturn
      exact absurd (htrim.last '\r' hreturn) (by decide)
  exact lines_intercalate (fun x hx => (hline x hx).1) (fun x hx => (hline x hx).2.1)
    fun x hx => (hline x hx).2.2

/-- The lines of the result, trimmed, are the inked lines of the text. -/
theorem map_trim_lines_formatBlock (t : Text) :
    (lines (formatBlock t)).map trim = inkedLines t := by
  rw [lines_formatBlock]
  exact map_trim_indentLines 0 false fun l hl => (of_mem_inkedLines hl).2.1

/-- Indenting keeps the lines. -/
theorem inkedLines_formatBlock (t : Text) : inkedLines (formatBlock t) = inkedLines t := by
  rw [inkedLines, map_trim_lines_formatBlock, List.filter_eq_self]
  intro line hl
  simpa using (of_mem_inkedLines hl).1

/-- Indenting a stylesheet twice is indenting it once. -/
theorem formatBlock_formatBlock (t : Text) : formatBlock (formatBlock t) = formatBlock t := by
  rw [formatBlock_eq (formatBlock t), inkedLines_formatBlock, ← formatBlock_eq]

/-- Indenting changes the layout only: the lines that are not blank stay, trimmed, and decide what
is written; the indentation of a line is at most as deep as braces stand in the lines before. -/
theorem formatBlock_layout (t : Text) :
    (lines (formatBlock t)).map trim = inkedLines t ∧
      (∀ before line after, lines (formatBlock t) = before ++ line :: after →
        ∃ k, line = indent k (trim line) ∧ k ≤ before.flatten.count '{') ∧
        (∀ u, formatBlock u = formatBlock t ↔ inkedLines u = inkedLines t) ∧
          formatBlock (formatBlock t) = formatBlock t := by
  refine ⟨map_trim_lines_formatBlock t, ?_, ?_, formatBlock_formatBlock t⟩
  · intro before line after h
    rw [lines_formatBlock] at h
    obtain ⟨k, l, hl, rfl, hk⟩ := exists_of_indentLines_eq h
    refine ⟨k, ?_, by simpa using hk⟩
    rw [trim_indent, (of_mem_inkedLines hl).2.1.trim_eq]
  · intro u
    constructor
    · intro h
      rw [← inkedLines_formatBlock u, h, inkedLines_formatBlock]
    · intro h
      rw [formatBlock_eq, h, ← formatBlock_eq]

/-- Only a blank stylesheet is indented to nothing. -/
theorem formatBlock_eq_nil_iff {t : Text} : formatBlock t = [] ↔ Blank t := by
  rw [← inkedLines_eq_nil_iff]
  constructor
  · intro h
    rw [← inkedLines_formatBlock, h]
    rfl
  · intro h
    rw [formatBlock_eq, h]
    rfl

/-- The indented stylesheet: its first line without indentation, and the others. -/
theorem formatBlock_cons {t line : Text} {rest : List Text} (h : inkedLines t = line :: rest) :
    ∃ d ic, formatBlock t = line ++ (indentLines d ic rest).flatMap (['\n'] ++ ·) := by
  have hlevel : lineLevel 0 false line = 0 := by
    unfold lineLevel
    split <;> rfl
  rw [formatBlock_eq, h, indentLines, intercalate_cons, hlevel]
  exact ⟨_, _, rfl⟩

/-- An indented stylesheet is trimmed. -/
theorem trimmed_formatBlock (t : Text) : Trimmed (formatBlock t) := by
  cases h : inkedLines t with
  | nil =>
    rw [formatBlock_eq, h]
    exact ⟨by simp [indentLines, List.intercalate], by simp [indentLines, List.intercalate]⟩
  | cons line rest =>
    obtain ⟨hne, htrim, -, -⟩ := of_mem_inkedLines (h ▸ List.mem_cons_self : line ∈ inkedLines t)
    obtain ⟨d, ic, hf⟩ := formatBlock_cons h
    refine ⟨?_, ?_⟩
    · rw [hf, List.head?_append_of_ne_nil _ hne]
      exact htrim.head
    · obtain ⟨l, last, hl⟩ : ∃ l last, inkedLines t = l ++ [last] := by
        rw [h]
        exact ⟨_, _, (List.dropLast_append_getLast (by simp)).symm⟩
      have hmem : last ∈ inkedLines t := by simp [hl]
      obtain ⟨hne', htrim', -, -⟩ := of_mem_inkedLines hmem
      obtain ⟨ls, k, hls⟩ := indentLines_concat 0 false l last
      obtain ⟨s, hs⟩ := intercalate_concat ['\n'] ls (indent k last)
      rw [formatBlock_eq, hl, hls, hs, indent, ← List.append_assoc,
        List.getLast?_append_of_ne_nil _ hne']
      exact htrim'.last

/-- A text on one line that starts with no white space occurs in the indented stylesheet only
if it occurs in the stylesheet. -/
theorem infix_of_infix_formatBlock {c : Char} {r t : Text} (hc : isBlank c = false)
    (hr : '\n' ∉ c :: r) (h : c :: r <:+: formatBlock t) : c :: r <:+: t := by
  obtain ⟨x, hx, hi⟩ := infix_intercalate (by simp) (by decide)
    (by simpa [lineSeparator] using hr) h
  obtain ⟨k, line, hl, rfl⟩ := exists_of_mem_indentLines hx
  have hspace : c ∉ (List.replicate k indentUnit).flatten := by
    intro hm
    rw [blank_indentation k c hm] at hc
    simp at hc
  exact (infix_append_of_head hspace hi).trans (of_mem_inkedLines hl).2.2.2

end StyleSnippet.Css
