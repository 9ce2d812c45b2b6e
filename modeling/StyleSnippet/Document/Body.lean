import StyleSnippet.Document.Banner
import StyleSnippet.Document.Cell
import StyleSnippet.Document.Mention
import StyleSnippet.Settings.Config

/-!
# The body of a snippet

The body of a snippet is CSS. By one of the two conventions it is cut into pieces, and each piece
goes to the setting that owns it, behind the CSS that the setting already has. What no setting
owns is the snippet's global CSS.

A cell belongs to the setting that it names. A passage, which is a banner and the CSS up to the
next one, belongs to the first setting, headings aside, whose id that CSS mentions; the title
plays no part.
-/

set_option autoImplicit false

namespace StyleSnippet

/-- Settings together with the CSS that none of them owns. -/
structure Shares where
  settings : List Setting
  globalCss : Text
  deriving Repr

namespace Body

/-- The convention that a body keeps to: a single banner makes it the one with banners. -/
def formatOf (body : Text) : BlockFormat :=
  if Banner.pattern.occursIn body then .asterisk else .cell

/-! ### Cells -/

/-- Hands out the cells of a split body. The text around the cells stays global, and so does a
cell that names no setting. -/
def handOutCells : List Setting → List (Occurrence Cell) × Text → Shares
  | settings, ([], rest) => ⟨settings, rest⟩
  | settings, (o :: os, rest) =>
    match Setting.updateFirstOf? (fun s => s.id = o.value.id)
        (Setting.appendCss (Text.trim o.value.content)) settings with
    | some settings' =>
      let shares := handOutCells settings' (os, rest)
      { shares with globalCss := o.before ++ shares.globalCss }
    | none =>
      let shares := handOutCells settings (os, rest)
      { shares with globalCss := o.before ++ o.written ++ shares.globalCss }

/-- Shares out a body by its cells. -/
def shareCells (settings : List Setting) (body : Text) : Shares :=
  let shares := handOutCells settings (Cell.pattern.split body)
  { shares with globalCss := Text.trim shares.globalCss }

/-! ### Passages -/

/-- A banner and the CSS up to the next banner. -/
structure Passage where
  banner : Text
  css : Text
  deriving DecidableEq, Repr

namespace Passage

/-- How a passage is written. -/
def written (p : Passage) : Text := p.banner ++ p.css

end Passage

/-- The CSS in front of the first banner, and the passages. -/
def passages : List (Occurrence Text) × Text → Text × List Passage
  | ([], rest) => (rest, [])
  | (o :: os, rest) =>
    let p := passages (os, rest)
    (o.before, ⟨o.written, p.1⟩ :: p.2)

/-- Whether a setting is one that a passage with the given CSS can belong to. -/
def owns (css : Text) (s : Setting) : Bool := !s.isHeading && mentionsId s.id css

/-- Hands a piece of CSS to the first setting that owns it. Nobody owns an empty piece. -/
def handOut? (css : Text) (settings : List Setting) : Option (List Setting) :=
  if css.isEmpty then none
  else Setting.updateFirstOf? (owns css) (Setting.appendCss css) settings

/-- Hands out passages, and tells those that nobody owns. -/
def handOutPassages : List Setting → List Passage → List Setting × List Passage
  | settings, [] => (settings, [])
  | settings, p :: rest =>
    match handOut? (Text.trim p.css) settings with
    | some settings' => handOutPassages settings' rest
    | none =>
      let r := handOutPassages settings rest
      (r.1, p :: r.2)

/-- Texts that are not empty, a blank line between every two. -/
def paragraphs (ts : List Text) : Text :=
  List.intercalate "\n\n".toList (ts.filter fun t => !t.isEmpty)

/-- Shares out a body by its banners. -/
def sharePassages (settings : List Setting) (body : Text) : Shares :=
  let (lead, ps) := passages (Banner.pattern.split body)
  let (settings', left) := handOutPassages settings ps
  { settings := settings'
    globalCss := paragraphs (Text.trim lead :: left.map fun p => Text.trim p.written) }

/-- Shares out a body by the given convention. -/
def share : BlockFormat → List Setting → Text → Shares
  | .cell => shareCells
  | .asterisk => sharePassages

end Body

end StyleSnippet
