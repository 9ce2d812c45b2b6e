import StyleSnippet.Css.Code
import StyleSnippet.Css.Context
import StyleSnippet.Css.Selector

/-!
# Confining a stylesheet to a scope class

A stylesheet is read once, from left to right. Text is held back until a structural boundary: a
brace, or a semicolon where style rules are written. When a block opens, the text held back is
its prelude, and a selector list that stands where selectors are scoped is confined; all other
text is copied.

Next to the confined text the scan records every block that it opened, with the place of its
prelude in the output. Unbalanced text never fails: a closing brace without an open block is
copied, and a comment or string that never ends reaches to the end of the text.
-/

set_option autoImplicit false

namespace StyleSnippet.Css

/-- One block opened by a scan. -/
structure BlockRecord where
  /-- Where the prelude starts in the output, in bytes of UTF-8. -/
  start : Nat
  /-- Where the prelude ends in the output, directly before the brace. -/
  stop : Nat
  /-- The context that the block opened in. -/
  parent : Context
  /-- The context of the body. -/
  context : Context
  /-- The name of the at-rule that the prelude writes. -/
  atRule : Option Text
  /-- Whether the prelude was confined as a selector list. -/
  confined : Bool
  /-- The number of open blocks, this one included. -/
  depth : Nat
  deriving DecidableEq, Repr

/-- The state of a scan between two characters. -/
structure Scan where
  /-- The output so far, last character first. -/
  done : Text := []
  /-- The text held back since the last boundary, last character first. -/
  held : Text := []
  /-- What the text read so far leaves open. -/
  mode : Mode := .code
  /-- The open blocks. -/
  stack : ContextStack := {}
  /-- The blocks opened so far, latest first. -/
  records : List BlockRecord := []
  deriving DecidableEq, Repr

/-- The result of a scan: the confined text and the blocks that it opened, in order. -/
structure Scanned where
  css : Text
  blocks : List BlockRecord
  deriving DecidableEq, Repr

/-- The prelude of a recorded block, as it stands in the output. -/
def Scanned.prelude? (r : Scanned) (b : BlockRecord) : Option Text :=
  Text.slice? b.start b.stop r.css

namespace Scan

/-- The text held back, in reading order. -/
def prelude (s : Scan) : Text := s.held.reverse

/-- Holds back one character. -/
def hold (s : Scan) (c : Char) : Scan := { s with held := c :: s.held, mode := s.mode.next c }

/-- Copies the text held back and one boundary character to the output. -/
def flush (s : Scan) (c : Char) : Scan :=
  { s with done := c :: (s.held ++ s.done), held := [], mode := s.mode.next c }

/-- Opens a block. -/
def openBlock (scope : Text) (s : Scan) : Scan :=
  let atRule := atRule? s.prelude
  let parent := s.stack.current
  let context := Context.ofPrelude atRule
  let confined := atRule.isNone && parent.scopesSelectors
  let prelude := if confined then prefixSelectors scope s.prelude else s.prelude
  let start := Text.utf8Length s.done
  let stack := s.stack.push context
  { done := '{' :: (prelude.reverse ++ s.done)
    held := []
    mode := s.mode.next '{'
    stack := stack
    records :=
      { start := start
        stop := start + Text.utf8Length prelude
        parent := parent
        context := context
        atRule := atRule
        confined := confined
        depth := stack.depth } :: s.records }

/-- Closes the innermost block. -/
def closeBlock (s : Scan) : Scan := { s.flush '}' with stack := s.stack.pop }

/-- Reads one character. -/
def step (scope : Text) (s : Scan) (c : Char) : Scan :=
  if s.mode.isCode then
    if c = '{' then s.openBlock scope
    else if c = '}' then s.closeBlock
    -- Between declarations a semicolon is held back like any other character.
    else if c = ';' ∧ s.stack.current.scopesSelectors then s.flush c
    else s.hold c
  else s.hold c

/-- The result at the end of the text, where the text held back is copied. -/
def finish (s : Scan) : Scanned :=
  { css := (s.held ++ s.done).reverse, blocks := s.records.reverse }

end Scan

/-- Confines a stylesheet to a scope class and records its blocks. -/
def scan (scope css : Text) : Scanned := (css.foldl (Scan.step scope) {}).finish

/-- A stylesheet with every selector confined to the scope class. -/
def scopeCss (scope css : Text) : Text := (scan scope css).css

/-- The class that confines to the namespace with the given id. -/
def scopeClass (id : Text) : Text := '.' :: Text.trim id

end StyleSnippet.Css
