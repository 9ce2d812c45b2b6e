import StyleSnippet.Text.Basic

/-!
# Patterns and their occurrences

A pattern tells what stands at the start of a text. Its occurrences in a text are taken from the
left, each one starting at the first place where the pattern matches after the end of the one
before, so they never overlap.
-/

set_option autoImplicit false

namespace StyleSnippet

/-- A pattern. What it recognises has a value and is written in some way that is not empty. -/
structure Pattern (α : Type) where
  /-- What stands at the start of a text: its value, how it is written, and the text after it. -/
  match? : Text → Option (α × Text × Text)
  /-- What is recognised and the text after it make up the text. -/
  sound : ∀ {t : Text} {a : α} {written rest : Text},
    match? t = some (a, written, rest) → t = written ++ rest ∧ written ≠ []

/-- An occurrence of a pattern in a text. -/
structure Occurrence (α : Type) where
  /-- The text since the occurrence before, or since the start. -/
  before : Text
  value : α
  /-- How the occurrence is written. -/
  written : Text
  deriving DecidableEq, Repr

namespace Pattern

variable {α : Type}

/-- A match is not empty, so the text behind it is shorter. -/
theorem rest_lt (p : Pattern α) {t : Text} {a : α} {written rest : Text}
    (h : p.match? t = some (a, written, rest)) : rest.length < t.length := by
  obtain ⟨rfl, hw⟩ := p.sound h
  have := List.length_pos_iff.mpr hw
  simp only [List.length_append]
  omega

/-- Puts a character in front of a split text. -/
def extend (c : Char) : List (Occurrence α) × Text → List (Occurrence α) × Text
  | ([], rest) => ([], c :: rest)
  | (o :: os, rest) => ({ o with before := c :: o.before } :: os, rest)

/-- The occurrences of a pattern in a text, and the text after the last one. -/
def split (p : Pattern α) (t : Text) : List (Occurrence α) × Text :=
  match t with
  | [] => ([], [])
  | c :: r =>
    match _h : p.match? (c :: r) with
    | some (a, written, rest) =>
      let s := p.split rest
      (⟨[], a, written⟩ :: s.1, s.2)
    | none => extend c (p.split r)
termination_by t.length
decreasing_by
  · exact p.rest_lt _h
  · simp

/-- The text that a split one was. -/
def join (s : List (Occurrence α) × Text) : Text :=
  (s.1.flatMap fun o => o.before ++ o.written) ++ s.2

/-- A character in front of what is found and left stands in front of the text. -/
@[simp] theorem join_extend (c : Char) (s : List (Occurrence α) × Text) :
    join (extend c s) = c :: join s := by
  obtain ⟨os, rest⟩ := s
  cases os <;> rfl

/-- Splitting a text loses nothing. -/
theorem join_split (p : Pattern α) (t : Text) : join (p.split t) = t := by
  fun_induction split p t with
  | case1 => rfl
  | case2 c r a written rest h s ih =>
    rw [(p.sound h).1, ← ih]
    simp [join, s]
  | case3 c r h ih => rw [join_extend, ih]

/-- Whether a pattern occurs in a text. -/
def occursIn (p : Pattern α) (t : Text) : Bool := !(p.split t).1.isEmpty

/-- A text that is not empty, as a pattern. -/
def literal (needle : Text) (h : needle ≠ []) : Pattern Unit where
  match? t := (Text.after? needle t).map fun rest => ((), needle, rest)
  sound := by
    intro t _ written rest ht
    simp only [Option.map_eq_some_iff, Prod.mk.injEq, true_and] at ht
    obtain ⟨rest', ha, rfl, rfl⟩ := ht
    exact ⟨Text.eq_append_of_after? ha, h⟩

/-- A text with another text in the place of every occurrence of a pattern. -/
def replace (p : Pattern α) (replacement t : Text) : Text :=
  let s := p.split t
  (s.1.flatMap fun o => o.before ++ replacement) ++ s.2

end Pattern

end StyleSnippet
