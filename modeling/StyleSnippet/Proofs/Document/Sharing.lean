import StyleSnippet.Proofs.Document.BannerBody
import StyleSnippet.Proofs.Document.Block

/-!
# What sharing out a body changes

Sharing out a body only adds CSS to settings. By either convention the body is cut into pieces,
and a setting has CSS afterwards just when it had some before or owns a piece that is not blank.
-/

set_option autoImplicit false

namespace StyleSnippet

open Text

open Setting

namespace Body

/-! ## Pieces -/

/-- The pieces of CSS that a body is cut into. -/
def pieces : BlockFormat → Text → List Piece
  | .cell, body => (Cell.pattern.split body).1.map cellPiece
  | .asterisk, body => (passages (Banner.pattern.split body)).2.map passagePiece

/-- Which setting takes a piece of a body does not depend on the CSS that is there already. -/
theorem formTest_of_mem_pieces {format : BlockFormat} {body : Text} {p : Piece}
    (h : p ∈ pieces format body) : FormTest p.accepts := by
  cases format with
  | cell =>
    obtain ⟨o, -, rfl⟩ := List.mem_map.mp h
    exact formTest_cellPiece o
  | asterisk =>
    obtain ⟨q, -, rfl⟩ := List.mem_map.mp h
    exact formTest_passagePiece q

/-- A body is shared out by handing out its pieces. -/
theorem share_settings (format : BlockFormat) (settings : List Setting) (body : Text) :
    (share format settings body).settings = handOut settings (pieces format body) := by
  cases format with
  | cell =>
    rw [share, shareCells, handOutCells_eq]
    rfl
  | asterisk =>
    simp only [share, sharePassages, handOutPassages_eq, pieces]

end Body

namespace Config

variable {c : Config} {body : Text}

/-- Sharing out a body changes nothing but CSS. -/
theorem bare_withBody (c : Config) (body : Text) : (c.withBody body).bare = c.bare := by
  have hform : formAll (Body.share (Body.formatOf body) c.settings body).settings =
      formAll c.settings := by
    rw [Body.share_settings]
    exact (cssAll_handOut (fun p => Body.formTest_of_mem_pieces) c.settings).1
  simp only [bare, withBody, hform]

/-- A setting has CSS of a body just if it had some before or owns a piece of the body that is not
blank. -/
theorem hasCssAt_withBody (c : Config) (body : Text) (i : Nat) :
    HasCssAt (c.withBody body).settings i ↔ HasCssAt c.settings i ∨
      i < (depthFirstAll c.settings).length ∧
        ∃ p ∈ Body.pieces (Body.formatOf body) body,
          ownerIdx c.settings p = i ∧ ¬ Blank p.css := by
  rw [withBody, Body.share_settings]
  exact hasCssAt_handOut (fun p => Body.formTest_of_mem_pieces) i

end Config

end StyleSnippet
