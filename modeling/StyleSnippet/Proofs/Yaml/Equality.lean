import StyleSnippet.Yaml.Value

/-!
# Equality of YAML values

Whether two YAML values are equal, the order of entries included, can be computed.
-/

set_option autoImplicit false

namespace StyleSnippet.Yaml.Value

mutual

/-- Whether two values are equal. -/
def eqb : Value → Value → Bool
  | .null, .null => true
  | .bool a, .bool b => a == b
  | .number a, .number b => decide (a = b)
  | .string a, .string b => a == b
  | .list a, .list b => eqbItems a b
  | .map a, .map b => eqbEntries a b
  | .tagged s a, .tagged t b => s == t && eqb a b
  | _, _ => false

/-- Whether two lists are equal. -/
def eqbItems : List Value → List Value → Bool
  | [], [] => true
  | a :: as, b :: bs => eqb a b && eqbItems as bs
  | _, _ => false

/-- Whether two mappings are equal, entry by entry. -/
def eqbEntries : List (Value × Value) → List (Value × Value) → Bool
  | [], [] => true
  | (k, v) :: as, (l, w) :: bs => eqb k l && eqb v w && eqbEntries as bs
  | _, _ => false

end

mutual

/-- The comparison of two values tells whether they are equal. -/
theorem eqb_iff : ∀ a b : Value, eqb a b = true ↔ a = b
  | .null, b => by cases b <;> simp [eqb]
  | .bool a, b => by cases b <;> simp [eqb]
  | .number a, b => by cases b <;> simp [eqb]
  | .string a, b => by cases b <;> simp [eqb]
  | .list a, b => by
    cases b with
    | list b => simp [eqb, eqbItems_iff a b]
    | _ => simp [eqb]
  | .map a, b => by
    cases b with
    | map b => simp [eqb, eqbEntries_iff a b]
    | _ => simp [eqb]
  | .tagged s a, b => by
    cases b with
    | tagged t b => simp [eqb, eqb_iff a b]
    | _ => simp [eqb]

/-- The comparison of two lists tells whether they are equal. -/
theorem eqbItems_iff : ∀ as bs : List Value, eqbItems as bs = true ↔ as = bs
  | [], bs => by cases bs <;> simp [eqbItems]
  | a :: as, bs => by
    cases bs with
    | nil => simp [eqbItems]
    | cons b bs => simp [eqbItems, eqb_iff a b, eqbItems_iff as bs]

/-- The comparison of two mappings tells whether they are equal. -/
theorem eqbEntries_iff : ∀ as bs : List (Value × Value), eqbEntries as bs = true ↔ as = bs
  | [], bs => by cases bs <;> simp [eqbEntries]
  | (k, v) :: as, bs => by
    cases bs with
    | nil => simp [eqbEntries]
    | cons b bs =>
      obtain ⟨l, w⟩ := b
      simp [eqbEntries, eqb_iff k l, eqb_iff v w, eqbEntries_iff as bs]

end

/-- Whether two values are equal is decided by the comparison. -/
instance : DecidableEq Value := fun a b => decidable_of_iff _ (eqb_iff a b)

end StyleSnippet.Yaml.Value
