import StyleSnippet.Text.Basic

/-!
# Where in the nesting of blocks a piece of CSS stands

Selectors are confined to a scope class only where style rules are written: at the top level
and inside conditional at-rules such as `@media`. The bodies of other at-rules (`@keyframes`,
`@font-face`) and of style rules are left alone. `Context` names these places, and
`ContextStack` holds the blocks that are open, innermost first.
-/

set_option autoImplicit false

namespace StyleSnippet.Css

/-- The kind of place that text stands in. -/
inductive Context
  /-- The top level. -/
  | root
  /-- The body of a conditional at-rule. -/
  | container
  /-- The body of any other at-rule. -/
  | shielded
  /-- The body of a style rule. -/
  | block
  deriving DecidableEq, Repr, Inhabited

namespace Context

/-- The at-rules whose bodies hold ordinary style rules. -/
def conditionalAtRules : List Text := ["media", "supports", "container", "document"]

/-- Whether selectors written directly in a context are scoped. -/
def scopesSelectors : Context → Bool
  | root | container => true
  | shielded | block => false

/-- The context of the body of the at-rule with the given name. -/
def ofAtRule (name : Text) : Context :=
  if name ∈ conditionalAtRules then container else shielded

/-- The context of the body of a block, from the at-rule name that its prelude holds. -/
def ofPrelude : Option Text → Context
  | some name => ofAtRule name
  | none => block

end Context

/-- The contexts of the open blocks, innermost first. The top level is below all of them and
cannot be closed. -/
structure ContextStack where
  frames : List Context := []
  deriving DecidableEq, Repr, Inhabited

namespace ContextStack

/-- The innermost context. -/
def current (s : ContextStack) : Context := s.frames.headD .root

/-- The number of open blocks. -/
def depth (s : ContextStack) : Nat := s.frames.length

/-- Opens a block. -/
def push (s : ContextStack) (c : Context) : ContextStack := ⟨c :: s.frames⟩

/-- The context that closing a block leaves, if a block is open. -/
def top? (s : ContextStack) : Option Context := s.frames.head?

/-- Closes the innermost block, and does nothing at the top level. -/
def pop (s : ContextStack) : ContextStack := ⟨s.frames.tail⟩

/-- The block that is opened last is the innermost one. -/
@[simp] theorem frames_push (s : ContextStack) (c : Context) :
    (s.push c).frames = c :: s.frames := rfl

/-- Opening a block adds one to the depth. -/
@[simp] theorem depth_push (s : ContextStack) (c : Context) : (s.push c).depth = s.depth + 1 := rfl

/-- Closing a block leaves the blocks around it. -/
@[simp] theorem frames_pop (s : ContextStack) : s.pop.frames = s.frames.tail := rfl

/-- Closing a block takes one off the depth, which stays zero at the top level. -/
@[simp] theorem depth_pop (s : ContextStack) : s.pop.depth = s.depth - 1 := List.length_tail

end ContextStack

end StyleSnippet.Css
