import StyleSnippet.Document.Body
import StyleSnippet.Proofs.Document.CellBody
import StyleSnippet.Proofs.Document.Rendered

/-!
# Rows of asterisks

A banner starts with a row of asterisks, so a text without a row keeps to the convention of cells.
Rendering CSS brings up no row, and neither do the marks of a cell.
-/

set_option autoImplicit false

namespace StyleSnippet

open Text Css

namespace Banner

variable {s t : Text}

/-- A text that holds a row of a banner. -/
def HasRow (t : Text) : Prop := ∃ k, minStars ≤ k ∧ row k <:+: t

/-- A row starts with a solidus. -/
theorem row_eq_cons (k : Nat) : row k = '/' :: (List.replicate k '*' ++ ['/']) := rfl

/-- A row is made of solidi and asterisks. -/
theorem mem_row {k : Nat} {c : Char} (h : c ∈ row k) : c = '/' ∨ c = '*' := by
  simp only [row, List.mem_cons, List.mem_append, List.mem_replicate, List.not_mem_nil,
    or_false] at h
  tauto

/-- A row holds no other characters. -/
theorem not_mem_row {c : Char} (h1 : c ≠ '/') (h2 : c ≠ '*') (k : Nat) : c ∉ row k := by
  intro h
  rcases mem_row h with h | h
  · exact h1 h
  · exact h2 h

/-- What is read as a row is one. -/
theorem exists_of_row? {t w rest : Text} (h : row? t = some (w, rest)) :
    ∃ k, minStars ≤ k ∧ w = row k := by
  unfold row? at h
  split at h
  · next r =>
    simp only at h
    split at h
    · next rest' hd =>
      simp only [Option.ite_none_right_eq_some, Option.some.injEq, Prod.mk.injEq] at h
      refine ⟨_, h.1, ?_⟩
      have hstars : r.takeWhile (· = '*') =
          List.replicate (r.takeWhile (· = '*')).length '*' := by
        apply List.eq_replicate_iff.mpr
        refine ⟨rfl, fun c hc => ?_⟩
        simpa using List.mem_takeWhile_imp hc
      rw [row, ← hstars, ← h.2.1]
    · simp at h
  · simp at h

/-- What is read as a banner starts with a row. -/
theorem row_prefix {m : Text × Text × Text} (h : pattern.match? t = some m) :
    ∃ k, minStars ≤ k ∧ row k <+: t := by
  simp only [pattern, ofText?, Option.bind_eq_bind, Option.map_eq_some_iff,
    Option.bind_eq_some_iff, Prod.exists] at h
  obtain ⟨-, -, ⟨w, rest, hrow, -⟩, -⟩ := h
  obtain ⟨k, hk, rfl⟩ := exists_of_row? hrow
  exact ⟨k, hk, rest, ((eq_of_row? hrow).1).symm⟩

/-- A banner that occurs in a text brings a row. -/
theorem hasRow_of_occursIn (h : pattern.occursIn t = true) : HasRow t := by
  obtain ⟨r, hr, m, hm⟩ := pattern.occursIn_iff.mp h
  obtain ⟨k, hk, hp⟩ := row_prefix hm
  exact ⟨k, hk, hp.isInfix.trans hr.isInfix⟩

/-- A row lies on one line. -/
theorem hasRow_append_feed : HasRow (s ++ '\n' :: t) ↔ HasRow s ∨ HasRow t := by
  have hfeed (k : Nat) : '\n' ∉ row k := not_mem_row (by decide) (by decide) k
  constructor
  · rintro ⟨k, hk, h⟩
    rcases (infix_append_cons (hfeed k)).mp h with h | h
    · exact Or.inl ⟨k, hk, h⟩
    · exact Or.inr ⟨k, hk, h⟩
  · rintro (⟨k, hk, h⟩ | ⟨k, hk, h⟩)
    · exact ⟨k, hk, (infix_append_cons (hfeed k)).mpr (Or.inl h)⟩
    · exact ⟨k, hk, (infix_append_cons (hfeed k)).mpr (Or.inr h)⟩

/-- A row among joined texts lies in one of them. -/
theorem exists_hasRow {ts : List Text} (h : HasRow (blankLine.intercalate ts)) :
    ∃ t ∈ ts, HasRow t := by
  obtain ⟨k, hk, h⟩ := h
  have hsep : ∀ c ∈ blankLine, c ∉ row k := by
    intro c hc
    have hfeed : c = '\n' := by simpa [blankLine] using hc
    rw [hfeed]
    exact not_mem_row (by decide) (by decide) k
  obtain ⟨t, ht, hi⟩ := infix_intercalate (by simp [row]) (by decide) hsep h
  exact ⟨t, ht, k, hk, hi⟩

/-- A row holds two asterisks in a row. -/
theorem stars_infix_row {k : Nat} (hk : minStars ≤ k) : "**".toList <:+: row k := by
  obtain ⟨j, rfl⟩ : ∃ j, k = 2 + j := ⟨k - 2, by simp only [minStars] at hk; omega⟩
  refine ⟨['/'], List.replicate j '*' ++ ['/'], ?_⟩
  rw [row, List.replicate_add]
  rfl

/-- A text without two asterisks in a row has no row. -/
theorem not_hasRow (h : ¬ "**".toList <:+: t) : ¬ HasRow t := by
  rintro ⟨k, hk, hi⟩
  exact h ((stars_infix_row hk).trans hi)

/-- The marks of a cell hold no row. -/
theorem hasRow_render_cell {id css : Text} (hid : IsId id) (h : HasRow (Cell.render id css)) :
    HasRow css := by
  have hsplit : Cell.render id css =
      (Cell.opening ++ id ++ Cell.openingEnd) ++ '\n' :: (css ++ '\n' :: Cell.closing) := by
    simp [Cell.render, Cell.written]
  rw [hsplit, hasRow_append_feed, hasRow_append_feed] at h
  rcases h with h | h | h
  · exfalso
    have hmark : Cell.opening ++ id ++ Cell.openingEnd =
        "/* @cell:".toList ++ ' ' :: (id ++ ' ' :: "*/".toList) := by
      have hopen : Cell.opening = "/* @cell:".toList ++ [' '] := by decide
      have hend : Cell.openingEnd = ' ' :: "*/".toList := by decide
      simp only [hopen, hend, List.append_assoc, List.cons_append, List.nil_append]
    have hspace : ' ' ∉ "**".toList := by decide
    revert h
    apply not_hasRow
    rw [hmark, infix_append_cons hspace, infix_append_cons hspace]
    rintro (h | h | h)
    · exact absurd h (by decide)
    · exact hid.not_mem (c := '*') (by decide) (h.subset (by decide))
    · exact absurd h (by decide)
  · exact h
  · exact absurd h (not_hasRow (by decide))

/-- Rendering brings up no row. -/
theorem hasRow_of_render {scope css : Text} (hs : ScopeClass scope)
    (h : HasRow (Css.render scope css)) : HasRow css := by
  obtain ⟨k, hk, hi⟩ := h
  have hfeed : '\n' ∉ row k := not_mem_row (by decide) (by decide) k
  have hpoint : '.' ∉ row k := not_mem_row (by decide) (by decide) k
  have hinert : ¬ Inert '/' := fun hi => hi.not_noted (by decide)
  rw [row_eq_cons] at hi
  exact ⟨k, hk, infix_of_infix_render hs (by decide) hinert hpoint hfeed hi⟩

/-- What is written of the global CSS holds no row if it holds none. -/
theorem hasRow_of_globalPart {c : Config} (ht : t ∈ c.globalPart) (h : HasRow t) :
    HasRow c.globalCss := by
  obtain ⟨k, hk, hi⟩ := h
  have hfeed : '\n' ∉ row k := not_mem_row (by decide) (by decide) k
  rw [row_eq_cons] at hi
  exact ⟨k, hk, Config.infix_of_infix_globalPart ht (by decide) hfeed hi⟩

end Banner

/-- A body without a row keeps to the convention of cells. -/
theorem Body.formatOf_eq_cell {body : Text} (h : ¬ Banner.HasRow body) :
    Body.formatOf body = .cell := by
  rw [Body.formatOf, if_neg]
  exact fun hocc => h (Banner.hasRow_of_occursIn hocc)

end StyleSnippet
