import Mathlib.Data.List.Lex
import StyleSnippet.Proofs.Settings.Forest

/-!
# Places in a forest of settings

A setting of a forest stands at a place: its position in the list, or the positions that lead to
it through the settings around it. Places are ordered like words, so a setting comes before the
ones nested in it and these come before the next setting of the list. Going depth first is going by
the places in that order, each once.
-/

set_option autoImplicit false

namespace StyleSnippet.Setting

variable {settings rest : List Setting} {s t : Setting} {p q : List Nat}

/-! ## The setting at a place -/

/-- The setting that the given positions lead to, from a setting on. -/
def below? (s : Setting) : List Nat → Option Setting
  | [] => some s
  | i :: p => s.nested[i]?.bind fun t => below? t p

/-- The setting at a place of a forest. Nothing stands at the empty place. -/
def at? (settings : List Setting) : List Nat → Option Setting
  | [] => none
  | i :: p => settings[i]?.bind fun s => s.below? p

/-- No positions lead from a setting to itself. -/
@[simp] theorem below?_nil (s : Setting) : s.below? [] = some s := rfl

/-- Positions lead from a setting to a place of the forest that is nested in it. -/
theorem below?_cons (s : Setting) (i : Nat) (p : List Nat) :
    s.below? (i :: p) = at? s.nested (i :: p) := rfl

/-- The first position tells the tree, and the others lead on from its root. -/
theorem at?_cons (settings : List Setting) (i : Nat) (p : List Nat) :
    at? settings (i :: p) = settings[i]?.bind fun s => s.below? p := rfl

/-- Nothing stands at the empty place. -/
@[simp] theorem at?_empty (settings : List Setting) : at? settings [] = none := rfl

/-- Nothing stands in an empty forest. -/
@[simp] theorem at?_nil (p : List Nat) : at? [] p = none := by
  cases p <;> rfl

/-- The places in the first tree. -/
@[simp] theorem at?_zero (s : Setting) (rest : List Setting) (p : List Nat) :
    at? (s :: rest) (0 :: p) = s.below? p := rfl

/-- The places behind the first tree are those of the rest. -/
@[simp] theorem at?_succ (s : Setting) (rest : List Setting) (i : Nat) (p : List Nat) :
    at? (s :: rest) ((i + 1) :: p) = at? rest (i :: p) := rfl

/-! ## Places in order -/

/-- Places in the order in which a visit depth first comes by them. -/
def Before (p q : List Nat) : Prop := List.Lex (· < ·) p q

/-- Places in one tree are in the order that they have in it. -/
theorem before_cons_iff {i : Nat} : Before (i :: p) (i :: q) ↔ Before p q := by
  unfold Before
  simp

/-- A root is in front of everything that is nested in it. -/
theorem before_nil_iff : Before [] q ↔ q ≠ [] := by
  unfold Before
  cases q <;> simp

/-- Places in two trees are in the order of the trees. -/
theorem before_of_lt {i j : Nat} (h : i < j) : Before (i :: p) (j :: q) := List.Lex.rel h

/-- The order of places stays when a tree is put in front. -/
theorem before_succ_iff {i j : Nat} :
    Before ((i + 1) :: p) ((j + 1) :: q) ↔ Before (i :: p) (j :: q) := by
  unfold Before
  simp [List.cons_lex_cons_iff]

/-- Of two places, one at most is in front of the other. -/
theorem Before.asymm (h : Before p q) : ¬ Before q p := by
  unfold Before at *
  exact asymm_of (List.Lex (· < ·)) h

/-! ## A forest in order -/

/-- Whether a list holds every setting of a forest once, with its place, in the order of places. -/
structure Listing (settings : List Setting) (l : List (List Nat × Setting)) : Prop where
  order : l.Pairwise fun e f => Before e.1 f.1
  mem_iff : ∀ p s, (p, s) ∈ l ↔ at? settings p = some s

/-- A setting at its place in a forest, as one that is nested in the first setting of a list. -/
def inFirst (e : List Nat × Setting) : List Nat × Setting := (0 :: e.1, e.2)

/-- A setting at its place in a forest, in front of which another setting is put. -/
def behindFirst (e : List Nat × Setting) : List Nat × Setting :=
  match e.1 with
  | [] => e
  | i :: p => ((i + 1) :: p, e.2)

variable {l l' : List (List Nat × Setting)}

/-- No place in a listing is empty. -/
theorem Listing.ne_nil (h : Listing settings l) : ∀ e ∈ l, e.1 ≠ [] := by
  rintro ⟨p, s⟩ he rfl
  simpa using (h.mem_iff [] s).mp he

/-- What stands in the first tree of a list. -/
theorem mem_map_inFirst : (p, t) ∈ l.map inFirst ↔ ∃ q, p = 0 :: q ∧ (q, t) ∈ l := by
  rw [List.mem_map]
  constructor
  · rintro ⟨⟨q, u⟩, he, heq⟩
    simp only [inFirst, Prod.mk.injEq] at heq
    obtain ⟨rfl, rfl⟩ := heq
    exact ⟨q, rfl, he⟩
  · rintro ⟨q, rfl, he⟩
    exact ⟨(q, t), he, rfl⟩

/-- What stands behind the first tree of a list. -/
theorem mem_map_behindFirst (hl : ∀ e ∈ l, e.1 ≠ []) :
    (p, t) ∈ l.map behindFirst ↔ ∃ i q, p = (i + 1) :: q ∧ (i :: q, t) ∈ l := by
  rw [List.mem_map]
  constructor
  · rintro ⟨⟨q, u⟩, he, heq⟩
    cases q with
    | nil => exact absurd rfl (hl _ he)
    | cons i q =>
      simp only [behindFirst, Prod.mk.injEq] at heq
      obtain ⟨rfl, rfl⟩ := heq
      exact ⟨i, q, rfl, he⟩
  · rintro ⟨i, q, rfl, he⟩
    exact ⟨(i :: q, t), he, rfl⟩

/-- A listing of what is nested in the first setting and one of the rest give one of the whole. -/
theorem Listing.cons (hnested : Listing s.nested l) (hrest : Listing rest l') :
    Listing (s :: rest) (([0], s) :: (l.map inFirst ++ l'.map behindFirst)) := by
  constructor
  · rw [List.pairwise_cons, List.pairwise_append, List.pairwise_map, List.pairwise_map]
    refine ⟨?_, ?_, ?_, ?_⟩
    · rintro ⟨p, t⟩ he
      rw [List.mem_append, mem_map_inFirst, mem_map_behindFirst hrest.ne_nil] at he
      obtain ⟨q, rfl, hq⟩ | ⟨i, q, rfl, -⟩ := he
      · exact before_cons_iff.mpr (before_nil_iff.mpr (hnested.ne_nil _ hq))
      · exact before_of_lt (by omega)
    · exact hnested.order.imp before_cons_iff.mpr
    · apply hrest.order.imp_of_mem
      rintro ⟨p, t⟩ ⟨q, u⟩ hp hq h
      cases p with
      | nil => exact absurd rfl (hrest.ne_nil _ hp)
      | cons i p =>
        cases q with
        | nil => exact absurd rfl (hrest.ne_nil _ hq)
        | cons j q => exact before_succ_iff.mpr h
    · rintro ⟨p, t⟩ hp ⟨q, u⟩ hq
      rw [mem_map_inFirst] at hp
      rw [mem_map_behindFirst hrest.ne_nil] at hq
      obtain ⟨p, rfl, -⟩ := hp
      obtain ⟨i, q, rfl, -⟩ := hq
      exact before_of_lt (by omega)
  · intro p t
    rw [List.mem_cons, List.mem_append, mem_map_inFirst, mem_map_behindFirst hrest.ne_nil]
    rcases p with _ | ⟨_ | i, p⟩
    · simp
    · cases p with
      | nil => simp [hnested.mem_iff, eq_comm]
      | cons i p => simp [hnested.mem_iff, below?_cons]
    · simp [hrest.mem_iff]

/-- A visit depth first lists a forest. -/
theorem exists_listing (settings : List Setting) :
    ∃ l, Listing settings l ∧ l.map (·.2) = depthFirstAll settings := by
  induction settings using forest_induction with
  | nil => exact ⟨[], ⟨List.Pairwise.nil, by simp⟩, rfl⟩
  | cons s rest ihn ihr =>
    obtain ⟨l, hl, heq⟩ := ihn
    obtain ⟨l', hl', heq'⟩ := ihr
    refine ⟨_, hl.cons hl', ?_⟩
    have hfirst : (fun e => e.2) ∘ inFirst = (·.2) := rfl
    have hbehind : (fun e => e.2) ∘ behindFirst = (·.2) := by
      funext ⟨p, t⟩
      cases p <;> rfl
    rw [List.map_cons, List.map_append, List.map_map, List.map_map, hfirst, hbehind, heq, heq',
      depthFirstAll_cons]

/-- The settings of a forest are those at its places. -/
theorem mem_depthFirstAll_iff : s ∈ depthFirstAll settings ↔ ∃ p, at? settings p = some s := by
  obtain ⟨l, hl, heq⟩ := exists_listing settings
  simp [← heq, ← hl.mem_iff]

/-- A setting of the list is in the forest, and so is what is nested in it. -/
theorem mem_depthFirstAll_of_getElem? {i : Nat} (h : settings[i]? = some s) :
    s ∈ depthFirstAll settings ∧ depthFirstAll s.nested ⊆ depthFirstAll settings := by
  constructor
  · exact mem_depthFirstAll_iff.mpr ⟨[i], by simp [at?_cons, h]⟩
  · intro t ht
    obtain ⟨p, hp⟩ := mem_depthFirstAll_iff.mp ht
    cases p with
    | nil => cases hp
    | cons j p =>
      refine mem_depthFirstAll_iff.mpr ⟨i :: j :: p, ?_⟩
      rw [at?_cons, h, Option.bind_some, below?_cons, hp]

end StyleSnippet.Setting
