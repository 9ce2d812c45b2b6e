import Mathlib.Data.List.TakeWhile
import StyleSnippet.Schema.Error

/-!
# Paths

A path leads from a value to a part of it: a key to the value under it, through the tags of the
mapping, and a position to the item of a list. The text of a path can be read again, so a message
that names a place names no other one.
-/

set_option autoImplicit false

namespace StyleSnippet

/-! ## Parts of a value -/

namespace Yaml.Value

open Schema

/-- The part of a value that one step leads to. -/
def part? (v : Value) : Step → Option Value
  | .field name => v.entries?.bind fun es => es.get? name
  | .item i =>
    match v with
    | .list items => items[i]?
    | _ => none

/-- The part of a value that a path leads to. -/
def follow? (v : Value) : Path → Option Value
  | [] => some v
  | step :: rest => (v.part? step).bind fun w => w.follow? rest

variable {v w : Value} {es : Entries} {p q : Path} {key : Text} {i : Nat}

/-- No steps lead from a value to itself. -/
@[simp] theorem follow?_nil (v : Value) : v.follow? [] = some v := rfl

/-- The first step leads to a part, and the others lead on from there. -/
@[simp] theorem follow?_cons (v : Value) (step : Step) (p : Path) :
    v.follow? (step :: p) = (v.part? step).bind fun w => w.follow? p := rfl

/-- A path of one step leads where the step does. -/
theorem follow?_singleton (v : Value) (step : Step) : v.follow? [step] = v.part? step :=
  Option.bind_fun_some (v.part? step)

/-- Two paths in a row lead where the second one does from the end of the first. -/
theorem follow?_append (v : Value) (p q : Path) :
    v.follow? (p ++ q) = (v.follow? p).bind fun w => w.follow? q := by
  induction p generalizing v with
  | nil => rfl
  | cons step p ih => simp [ih, Option.bind_assoc]

/-- The entries of a mapping. -/
@[simp] theorem entries?_map (es : Entries) : (Value.map es).entries? = some es := rfl

/-- A position leads to the item of a list there. -/
@[simp] theorem part?_item (items : List Value) (i : Nat) :
    (Value.list items).part? (.item i) = items[i]? := rfl

/-- A key leads to what stands under it, through tags. -/
theorem part?_field (h : v.entries? = some es) (key : Text) :
    v.part? (.field key) = es.get? key := by
  rw [part?, h, Option.bind_some]

/-- No list is a mapping, so a position leads nowhere from one, tags or not. -/
theorem part?_item_of_entries? (h : v.entries? = some es) (i : Nat) :
    v.part? (.item i) = none := by
  cases v with
  | list items => simp [entries?, untagged] at h
  | _ => rfl

/-- Tags around a mapping make no difference to a path that leads into it. -/
theorem follow?_of_entries? (h : v.entries? = some es) (hp : p ≠ []) :
    v.follow? p = (Value.map es).follow? p := by
  cases p with
  | nil => exact absurd rfl hp
  | cons step p =>
    cases step with
    | field key => rw [follow?_cons, follow?_cons, part?_field h, part?_field (entries?_map es)]
    | item i => rw [follow?_cons, part?_item_of_entries? h, follow?_cons]; rfl

/-- A value without its tags is no larger. -/
theorem sizeOf_untagged_le : ∀ v : Value, sizeOf v.untagged ≤ sizeOf v
  | .tagged tag v => by
    have hle := sizeOf_untagged_le v
    simp only [untagged, tagged.sizeOf_spec]
    omega
  | .null | .bool _ | .number _ | .string _ | .list _ | .map _ => le_rfl

/-- The entries of a value are smaller than the value. -/
theorem sizeOf_of_entries? (h : v.entries? = some es) : sizeOf es < sizeOf v := by
  have hle := sizeOf_untagged_le v
  unfold entries? at h
  split at h
  · next entries heq =>
    obtain rfl := Option.some.inj h
    simp only [heq, map.sizeOf_spec] at hle
    omega
  · cases h

/-- What stands under a key is smaller than the entries. -/
theorem sizeOf_of_get? (h : es.get? key = some v) : sizeOf v < sizeOf es := by
  obtain ⟨⟨k, w⟩, hmem, hw⟩ := List.exists_of_findSome?_eq_some h
  have hlt := List.sizeOf_lt_of_mem hmem
  split at hw
  · split at hw
    · cases hw
      simp only [Prod.mk.sizeOf_spec] at hlt
      show sizeOf w < sizeOf es
      omega
    · cases hw
  · cases hw

/-- What holds of a value if it holds of all smaller ones, parts of parts among them, holds of every
value. -/
theorem size_induction {motive : Value → Prop}
    (h : ∀ v, (∀ w, sizeOf w < sizeOf v → motive w) → motive v) (v : Value) : motive v :=
  (measure (fun v : Value => sizeOf v)).wf.induction v h

end Yaml.Value

/-! ## The text of a path -/

namespace Schema

/-- Whether a key is a name of letters. -/
def IsName (key : Text) : Prop := key ≠ [] ∧ ∀ c ∈ key, c.isAlpha = true

/-- Whether a key is a name is decided character by character. -/
instance (key : Text) : Decidable (IsName key) := inferInstanceAs (Decidable (_ ∧ _))

/-- Whether a path starts with a key and all its keys are names. -/
structure Path.IsPlain (p : Path) : Prop where
  name : ∀ key, .field key ∈ p → IsName key
  head : ∀ i, p.head? ≠ some (.item i)

/-- How a step is written behind another one. -/
def stepText : Step → Text
  | .field name => '.' :: name
  | .item i => '[' :: (Text.ofNat i ++ [']'])

/-- The steps that a text says, each behind its mark. -/
def stepsOf? (t : Text) : Option Path :=
  match t with
  | [] => some []
  | '.' :: r =>
    (stepsOf? (r.dropWhile Char.isAlpha)).map (.field (r.takeWhile Char.isAlpha) :: ·)
  | '[' :: r =>
    match _h : r.dropWhile Char.isDigit with
    | ']' :: rest =>
      (stepsOf? rest).map (.item (Nat.ofDigitChars 10 (r.takeWhile Char.isDigit) 0) :: ·)
    | _ => none
  | _ => none
termination_by t.length
decreasing_by
  · have := (List.dropWhile_sublist (l := r) Char.isAlpha).length_le
    simp only [List.length_cons]
    omega
  · have := (List.dropWhile_sublist (l := r) Char.isDigit).length_le
    rw [_h] at this
    simp only [List.length_cons] at this ⊢
    omega

/-- The path that a text says. The first key has no point in front. -/
def Path.ofText? (t : Text) : Option Path :=
  if t = "<root>" then some [] else stepsOf? ('.' :: t)

variable {p : Path} {key : Text}

/-- What is written behind a name does not go on with it. -/
theorem isAlpha_head_stepTexts (p : Path) :
    ∀ c ∈ (p.flatMap stepText).head?, c.isAlpha = false ∧ c.isDigit = false := by
  rcases p with _ | ⟨_ | i, p⟩
  · simp
  · simp [stepText]
  · simp [stepText]

/-- A text is cut where a test first fails. -/
theorem span_append {f : Char → Bool} {s t : Text} (hs : ∀ c ∈ s, f c = true)
    (ht : ∀ c ∈ t.head?, f c = false) :
    (s ++ t).takeWhile f = s ∧ (s ++ t).dropWhile f = t := by
  rw [List.takeWhile_append_of_pos hs, List.dropWhile_append_of_pos hs]
  cases t with
  | nil => simp
  | cons c t =>
    have hc := ht c rfl
    simp [hc]

/-- Steps whose keys are names are read as they were written. -/
theorem stepsOf?_stepTexts (h : ∀ key, .field key ∈ p → IsName key) :
    stepsOf? (p.flatMap stepText) = some p := by
  induction p with
  | nil => simp [stepsOf?]
  | cons step p ih =>
    have hrest := ih fun key hkey => h key (List.mem_cons_of_mem step hkey)
    cases step with
    | field key =>
      have hkey := h key (by simp)
      obtain ⟨htake, hdrop⟩ := span_append hkey.2 fun c hc => (isAlpha_head_stepTexts p c hc).1
      have htext : List.flatMap stepText (.field key :: p) =
          '.' :: (key ++ p.flatMap stepText) := rfl
      rw [htext, stepsOf?, htake, hdrop, hrest]
      rfl
    | item i =>
      have hdigits : ∀ c ∈ Text.ofNat i, c.isDigit = true := fun c hc =>
        Nat.isDigit_of_mem_toDigits (by decide) (by decide) hc
      obtain ⟨htake, hdrop⟩ := span_append (t := ']' :: p.flatMap stepText) hdigits (by simp)
      have htext : List.flatMap stepText (.item i :: p) =
          '[' :: (Text.ofNat i ++ ']' :: p.flatMap stepText) := by
        simp [stepText]
      rw [htext, stepsOf?]
      split
      · next rest hsplit =>
        obtain rfl : p.flatMap stepText = rest := (List.cons.inj (hdrop.symm.trans hsplit)).2
        rw [hrest, htake, Text.ofNat, Nat.ofDigitChars_toDigits (by decide) (by decide)]
        rfl
      · next hno => exact absurd hdrop (hno _)

/-- Behind a first step, all steps are written one behind the other. -/
theorem foldl_stepText (p : Path) {acc : Text} (hacc : acc ≠ []) :
    p.foldl (fun acc step =>
      match step with
      | .field name => if acc.isEmpty then name else acc ++ '.' :: name
      | .item i => acc ++ '[' :: (Text.ofNat i ++ [']'])) acc = acc ++ p.flatMap stepText := by
  induction p generalizing acc with
  | nil => simp
  | cons step p ih =>
    cases step with
    | field key =>
      show p.foldl _ (if acc.isEmpty then key else acc ++ '.' :: key) = _
      rw [if_neg (by simpa using hacc), ih (by simp)]
      simp [stepText]
    | item i =>
      show p.foldl _ (acc ++ '[' :: (Text.ofNat i ++ [']'])) = _
      rw [ih (by simp)]
      simp [stepText]

/-- A path that starts with a name is the name, and behind it the steps. -/
theorem Path.text_cons (hkey : IsName key) (p : Path) :
    Path.text (.field key :: p) = key ++ p.flatMap stepText := by
  unfold Path.text
  rw [if_neg (by simp), List.foldl_cons]
  exact foldl_stepText p hkey.1

/-- What the text of a path says is the path. -/
theorem Path.ofText?_text (h : p.IsPlain) : Path.ofText? p.text = some p := by
  unfold Path.ofText?
  rcases p with _ | ⟨key | i, p⟩
  · rfl
  · have hkey := h.name key (by simp)
    have hroot : key ++ p.flatMap stepText ≠ "<root>" := by
      intro heq
      cases key with
      | nil => exact hkey.1 rfl
      | cons c key =>
        obtain rfl : c = '<' := (List.cons.inj heq).1
        exact absurd (hkey.2 '<' (by simp)) (by decide)
    rw [Path.text_cons hkey, if_neg hroot]
    exact stepsOf?_stepTexts h.name
  · exact absurd rfl (h.head i)

end Schema

end StyleSnippet
