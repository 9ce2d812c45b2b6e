import StyleSnippet.Yaml.Reader

/-!
# Mappings without repeated keys

A mapping with the same key twice is refused when a document is read, so the keys of what is read
are distinct throughout. Putting entries into a mapping whose keys they do not repeat puts them
behind it.
-/

set_option autoImplicit false

namespace StyleSnippet.Yaml

/-! ## Entries -/

namespace Entries

variable {entries other : Entries} {key value : Value}

/-- No key is the same as one before it. -/
def Distinct (entries : Entries) : Prop := entries.Pairwise fun e f => f.1.same e.1 = false

/-- A key is not there just if no entry has the same. -/
theorem hasKey_eq_false_iff : entries.hasKey key = false ↔ ∀ e ∈ entries, key.same e.1 = false := by
  simp [hasKey]

/-- A new key goes to the end. -/
theorem insert_eq (h : ∀ e ∈ entries, key.same e.1 = false) :
    insert key value entries = entries ++ [(key, value)] := by
  induction entries with
  | nil => rfl
  | cons e entries ih =>
    obtain ⟨k, v⟩ := e
    have hrest := ih fun f hf => h f (List.mem_cons_of_mem _ hf)
    rw [insert, h (k, v) (by simp), if_neg (by simp), hrest]
    rfl

/-- New keys go to the end, in order. -/
theorem insertAll_eq (hother : Distinct other)
    (h : ∀ f ∈ other, ∀ e ∈ entries, f.1.same e.1 = false) :
    insertAll entries other = entries ++ other := by
  induction other generalizing entries with
  | nil => simp [insertAll]
  | cons f other ih =>
    rw [Distinct, List.pairwise_cons] at hother
    have hstep : insertAll entries (f :: other) = insertAll (insert f.1 f.2 entries) other := rfl
    rw [hstep, insert_eq (h f (by simp)), ih hother.2]
    · simp
    · intro g hg e he
      rcases List.mem_append.mp he with he | he
      · exact h g (List.mem_cons_of_mem f hg) e he
      · rw [List.mem_singleton] at he
        rw [he]
        exact hother.1 g hg

end Entries

namespace Value

/-- The same key as a string is that string alone. -/
theorem same_string_iff {v : Value} {s : Text} : v.same (.string s) = true ↔ v = .string s := by
  cases v <;> simp [same]

/-- A string is the same key as itself alone. -/
theorem string_same_iff {v : Value} {s : Text} :
    (Value.string s).same v = true ↔ v = .string s := by
  cases v with
  | string t => simpa [same] using eq_comm
  | _ => simp [same]

/-! ## Values -/

mutual

/-- The keys of every mapping in a value are distinct, those in keys aside. -/
def Distinct : Value → Prop
  | .null => True
  | .bool _ => True
  | .number _ => True
  | .string _ => True
  | .list items => ItemsDistinct items
  | .map entries => Entries.Distinct entries ∧ EntriesDistinct entries
  | .tagged _ v => Distinct v

/-- The keys of every mapping in some items are distinct. -/
def ItemsDistinct : List Value → Prop
  | [] => True
  | v :: rest => Distinct v ∧ ItemsDistinct rest

/-- The keys of every mapping in the values of some entries are distinct. -/
def EntriesDistinct : List (Value × Value) → Prop
  | [] => True
  | (_, v) :: rest => Distinct v ∧ EntriesDistinct rest

end

/-- Entries with distinct keys in their values are so together. -/
theorem entriesDistinct_append {es fs : Entries} (he : EntriesDistinct es)
    (hf : EntriesDistinct fs) : EntriesDistinct (es ++ fs) := by
  induction es with
  | nil => exact hf
  | cons e es ih =>
    obtain ⟨k, v⟩ := e
    exact ⟨he.1, ih he.2⟩

/-- A value without its tags has distinct keys if it has with them. -/
theorem Distinct.untagged {v : Value} (h : v.Distinct) : v.untagged.Distinct := by
  fun_induction Value.untagged v with
  | case1 tag v ih => exact ih h
  | case2 v => exact h

/-- The mapping behind tags has distinct keys. -/
theorem Distinct.of_entries? {v : Value} {es : Entries} (h : v.Distinct)
    (hes : v.entries? = some es) : (Value.map es).Distinct := by
  rw [entries?] at hes
  split at hes
  · next entries heq =>
    rw [← Option.some.inj hes, ← heq]
    exact h.untagged
  · cases hes

end Value

/-! ## What is read -/

namespace Node

open Value

/-- Whatever is read has distinct keys. -/
def ReadsDistinct (read : Read) : Prop :=
  ∀ (n : Node) (left left' : Nat) (v : Value), read n left = some (v, left') → v.Distinct

variable {read : Read} {left left' : Nat}

/-- Items have distinct keys if each is read with such. -/
theorem itemsDistinct_of_itemValues? (hread : ReadsDistinct read) {ns : List Node}
    {vs : List Value} (h : itemValues? read ns left = some (vs, left')) : ItemsDistinct vs := by
  induction ns generalizing left vs with
  | nil =>
    rw [itemValues?, Option.some.injEq, Prod.mk.injEq] at h
    rw [← h.1]
    trivial
  | cons n ns ih =>
    simp only [itemValues?, Option.bind_eq_bind, Option.bind_eq_some_iff, Prod.exists,
      Option.pure_def, Option.some.injEq, Prod.mk.injEq] at h
    obtain ⟨v, left₁, hv, vs', left₂, hvs, rfl, rfl⟩ := h
    exact ⟨hread _ _ _ _ hv, ih hvs⟩

/-- Entries are read with distinct keys: one that is there already is refused. -/
theorem entriesDistinct_of_entryValues? (hread : ReadsDistinct read) {before es : Entries}
    {ns : List (Node × Node)} (hbefore : Entries.Distinct before) (hvalues : EntriesDistinct before)
    (h : entryValues? read before ns left = some (es, left')) :
    Entries.Distinct es ∧ EntriesDistinct es := by
  induction ns generalizing left before with
  | nil =>
    rw [entryValues?, Option.some.injEq, Prod.mk.injEq] at h
    rw [← h.1]
    exact ⟨hbefore, hvalues⟩
  | cons n ns ih =>
    obtain ⟨k, v⟩ := n
    simp only [entryValues?, Option.bind_eq_bind, Option.bind_eq_some_iff, Prod.exists] at h
    obtain ⟨key, left₁, -, h⟩ := h
    split at h
    · simp at h
    · next hkey =>
      simp only [Option.bind_eq_some_iff, Prod.exists] at h
      obtain ⟨value, left₂, hvalue, h⟩ := h
      have hnew := Entries.hasKey_eq_false_iff.mp (by simpa using hkey)
      have hlast : EntriesDistinct [(key, value)] := ⟨hread _ _ _ _ hvalue, trivial⟩
      refine ih ?_ (entriesDistinct_append hvalues hlast) h
      rw [Entries.Distinct, List.pairwise_append]
      refine ⟨hbefore, by simp, ?_⟩
      intro e he f hf
      rw [List.mem_singleton] at hf
      rw [hf]
      exact hnew e he

/-- A value of one of the core types has no keys. -/
theorem distinct_of_value? {core : CoreTag} {t : Text} {v : Value} (h : core.value? t = some v) :
    v.Distinct := by
  cases core with
  | bool =>
    obtain ⟨b, -, rfl⟩ := Option.map_eq_some_iff.mp h
    trivial
  | int =>
    rw [CoreTag.value?] at h
    split at h
    · cases h
      trivial
    · cases h
  | float =>
    obtain ⟨x, -, rfl⟩ := Option.map_eq_some_iff.mp h
    trivial
  | null =>
    rw [CoreTag.value?] at h
    split at h
    · cases h
      trivial
    · cases h

/-- A plain scalar has no keys. -/
theorem distinct_of_plainValue? {t : Text} {v : Value} (h : plainValue? t = some v) :
    v.Distinct := by
  rw [plainValue?] at h
  split at h <;> cases h <;> trivial

/-- A scalar has no keys. -/
theorem distinct_of_scalarValue? {tag : Option TagText} {plain : Bool} {t : Text} {v : Value}
    (h : scalarValue? tag plain t = some v) : v.Distinct := by
  rw [scalarValue?] at h
  split at h
  · exact distinct_of_value? h
  · split at h
    · exact distinct_of_plainValue? h
    · cases h
      trivial

/-- A tag adds no keys. -/
theorem distinct_withTag {tag : Option TagText} {v : Value} (h : v.Distinct) :
    (withTag tag v).Distinct := by
  rw [withTag]
  split
  · exact h
  · exact h

/-- What a node is read as has distinct keys, if the parts of it have. -/
theorem distinct_of_partValue? {inner : Option Read} (hinner : ∀ read ∈ inner, ReadsDistinct read)
    {n : Node} {v : Value} (h : partValue? inner n left = some (v, left')) : v.Distinct := by
  cases n with
  | «alias» => simp [partValue?] at h
  | scalar a tag plain text =>
    simp only [partValue?, Option.map_eq_some_iff, Prod.mk.injEq] at h
    obtain ⟨w, hw, rfl, -⟩ := h
    exact distinct_withTag (distinct_of_scalarValue? hw)
  | list a tag items =>
    simp only [partValue?, Option.bind_eq_bind, Option.bind_eq_some_iff, Prod.exists,
      Option.pure_def, Option.some.injEq, Prod.mk.injEq] at h
    obtain ⟨read, hread, vs, left₁, hvs, rfl, -⟩ := h
    exact distinct_withTag (itemsDistinct_of_itemValues? (hinner read hread) hvs)
  | map a tag entries =>
    simp only [partValue?, Option.bind_eq_bind, Option.bind_eq_some_iff, Prod.exists,
      Option.pure_def, Option.some.injEq, Prod.mk.injEq] at h
    obtain ⟨read, hread, es, left₁, hes, rfl, -⟩ := h
    exact distinct_withTag (v := .map es)
      (entriesDistinct_of_entryValues? (hinner read hread) List.Pairwise.nil trivial hes)

/-- What an alias stands for has distinct keys, if all nodes are read with such. -/
theorem readsDistinct_followed? (anchored : List (Nat × Node)) {inner : Option Read}
    (hinner : ∀ read ∈ inner, ReadsDistinct read) : ReadsDistinct (followed? anchored inner) := by
  intro n left left' v h
  unfold followed? at h
  split at h
  · simp at h
  · obtain ⟨m, -, hm⟩ := Option.bind_eq_some_iff.mp h
    exact distinct_of_partValue? hinner hm
  · exact distinct_of_partValue? hinner h

/-- Every node is read with distinct keys, however deep it goes. -/
theorem readsDistinct_value? (anchored : List (Nat × Node)) (depth : Nat) :
    ReadsDistinct (value? anchored depth) := by
  induction depth with
  | zero => exact readsDistinct_followed? anchored (by simp)
  | succ depth ih =>
    refine readsDistinct_followed? anchored ?_
    intro read hread
    rw [Option.mem_some_iff] at hread
    rw [← hread]
    exact ih

end Node

/-- What a document says has distinct keys. -/
theorem distinct_of_read? {t : Text} {v : Value} (h : read? t = some v) : v.Distinct := by
  simp only [read?, Option.bind_eq_bind, Option.bind_eq_some_iff] at h
  obtain ⟨ts, -, node, -, h⟩ := h
  split at h
  · rw [Option.pure_def, Option.some.injEq] at h
    rw [← h]
    trivial
  · simp only [Option.bind_eq_some_iff, Prod.exists, Option.pure_def, Option.some.injEq] at h
    obtain ⟨w, left, hw, rfl⟩ := h
    exact Node.readsDistinct_value? _ _ _ _ _ _ hw

end StyleSnippet.Yaml
