import Mathlib.Data.List.Nodup
import StyleSnippet.Proofs.Store.MapStore

/-!
# Directories that hold texts only

Where every entry of a directory is a file that holds text, the entries are a finite map from names
to texts, and the operations on entries keep it so. The names that are listed are the names in the
map that end with the extension, each of them once, in the order of their code points.
-/

set_option autoImplicit false

namespace StyleSnippet

/-- The names in a map that end with an extension, in order. -/
structure Lists (extension : Text) (texts : Text → Option Text) (names : List Text) : Prop where
  increasing : names.Pairwise (List.Lex (· < ·))
  mem_iff : ∀ name, name ∈ names ↔ (texts name).isSome ∧ Text.endsWith extension name

namespace DirEntries

variable {es : DirEntries} {name content : Text}

/-! ## The order of names -/

/-- Names are compared by their first characters, and where these are the same by the rest. -/
theorem nameLe_cons {c d : Char} {r s : Text} :
    nameLe (c :: r) (d :: s) = true ↔ c < d ∨ c = d ∧ nameLe r s = true := by
  simp [nameLe]

/-- Of two names, one is not behind the other. -/
theorem nameLe_total (s t : Text) : nameLe s t = true ∨ nameLe t s = true := by
  induction s generalizing t with
  | nil => exact .inl rfl
  | cons c r ih =>
    cases t with
    | nil => exact .inr rfl
    | cons d t =>
      rw [nameLe_cons, nameLe_cons]
      rcases Std.lt_trichotomy c d with h | rfl | h
      · exact .inl (.inl h)
      · exact (ih t).imp (fun hrest => .inr ⟨rfl, hrest⟩) fun hrest => .inr ⟨rfl, hrest⟩
      · exact .inr (.inl h)

/-- The order of names is transitive. -/
theorem nameLe_trans {s t u : Text} (hst : nameLe s t = true) (htu : nameLe t u = true) :
    nameLe s u = true := by
  induction s generalizing t u with
  | nil => rfl
  | cons c r ih =>
    cases t with
    | nil => cases hst
    | cons d t =>
      cases u with
      | nil => cases htu
      | cons e u =>
        rw [nameLe_cons] at hst htu ⊢
        rcases hst with hst | ⟨rfl, hst⟩ <;> rcases htu with htu | ⟨rfl, htu⟩
        · exact .inl (Std.lt_trans hst htu)
        · exact .inl hst
        · exact .inl htu
        · exact .inr ⟨rfl, ih hst htu⟩

/-- The order of two different names is that of texts. -/
theorem lex_of_nameLe {s t : Text} (h : nameLe s t = true) (hne : s ≠ t) :
    List.Lex (· < ·) s t := by
  induction s generalizing t with
  | nil =>
    obtain ⟨d, t, rfl⟩ := List.exists_cons_of_ne_nil hne.symm
    exact .nil
  | cons c r ih =>
    cases t with
    | nil => cases h
    | cons d t =>
      rcases nameLe_cons.mp h with hlt | ⟨rfl, hrest⟩
      · exact .rel hlt
      · exact .cons (ih hrest fun heq => hne (congrArg _ heq))

/-- Names that are all different are put into a strictly increasing order. -/
theorem increasing_mergeSort {names : List Text} (h : names.Nodup) :
    (names.mergeSort nameLe).Pairwise (List.Lex (· < ·)) := by
  have hle : (names.mergeSort nameLe).Pairwise fun s t => nameLe s t = true := by
    apply List.pairwise_mergeSort
    · exact fun s t u => nameLe_trans
    · intro s t
      rw [Bool.or_eq_true]
      exact nameLe_total s t
  have hnodup : (names.mergeSort nameLe).Pairwise (· ≠ ·) :=
    (List.mergeSort_perm names nameLe).nodup_iff.mpr h
  exact hle.imp₂ (fun s t => lex_of_nameLe) hnodup

/-! ## Entries that are documents -/

/-- Entries that are files with text in them, no two of which have one name. -/
structure AreDocuments (es : DirEntries) : Prop where
  nodup : (es.map Prod.fst).Nodup
  documents : ∀ e ∈ es, ∃ content, e.2 = .document content

/-- No entries are documents. -/
theorem areDocuments_nil : AreDocuments [] := ⟨List.nodup_nil, by simp⟩

/-- Entries are documents still when the first one is left out. -/
theorem AreDocuments.tail {e : Text × DirEntry} (h : AreDocuments (e :: es)) : AreDocuments es :=
  ⟨(List.nodup_cons.mp h.nodup).2, fun x hx => h.documents x (List.mem_cons_of_mem e hx)⟩

/-- The map has just the texts of the files. -/
theorem AreDocuments.text?_eq_some_iff (h : es.AreDocuments) :
    es.text? name = some content ↔ (name, .document content) ∈ es := by
  induction es with
  | nil => simp [text?, get?]
  | cons e es ih =>
    obtain ⟨other, entry⟩ := e
    obtain ⟨held, rfl⟩ : ∃ held, entry = .document held := h.documents (other, entry) (by simp)
    have htail := ih h.tail
    by_cases hname : name = other
    · subst hname
      have hnot : (name, .document content) ∉ es := fun hmem =>
        (List.nodup_cons.mp h.nodup).1 (List.mem_map.mpr ⟨_, hmem, rfl⟩)
      simp [text?, get?_cons, DirEntry.text?, hnot, eq_comm]
    · rw [text?, get?_cons, Function.update_of_ne hname, ← text?, htail]
      simp [hname]

/-- The names in the map are the names of the files. -/
theorem AreDocuments.isSome_text?_iff (h : es.AreDocuments) :
    (es.text? name).isSome ↔ name ∈ es.map Prod.fst := by
  rw [Option.isSome_iff_exists, List.mem_map]
  constructor
  · rintro ⟨content, hcontent⟩
    exact ⟨_, h.text?_eq_some_iff.mp hcontent, rfl⟩
  · rintro ⟨⟨other, entry⟩, hmem, rfl⟩
    obtain ⟨content, rfl⟩ : ∃ content, entry = .document content := h.documents _ hmem
    exact ⟨content, h.text?_eq_some_iff.mpr hmem⟩

/-- What is found under a name is its text. -/
theorem AreDocuments.get?_eq (h : es.AreDocuments) (name : Text) :
    es.get? name = (es.text? name).map .document := by
  induction es with
  | nil => rfl
  | cons e es ih =>
    obtain ⟨content, hcontent⟩ := h.documents e (by simp)
    by_cases hname : name = e.1
    · simp [text?, get?_cons, hname, hcontent, DirEntry.text?]
    · simpa [text?, get?_cons, Function.update_of_ne hname] using ih h.tail

/-- Entries are documents still when a name is taken out. -/
theorem AreDocuments.erase (h : es.AreDocuments) (name : Text) : (es.erase name).AreDocuments :=
  ⟨h.nodup.sublist (List.filter_sublist.map _),
    fun e he => h.documents e (List.mem_of_mem_filter he)⟩

/-- Entries are documents still when a text is put under a name. -/
theorem AreDocuments.put (h : es.AreDocuments) (name content : Text) :
    (es.put name (.document content)).AreDocuments := by
  have herase := h.erase name
  refine ⟨List.nodup_cons.mpr ⟨?_, herase.nodup⟩, ?_⟩
  · intro hmem
    obtain ⟨e, he, hname⟩ := List.mem_map.mp hmem
    have hne : e.1 ≠ name := by simpa using (List.mem_filter.mp he).2
    exact hne hname
  · intro e he
    rcases List.mem_cons.mp he with rfl | he
    · exact ⟨content, rfl⟩
    · exact herase.documents e he

/-- The files that are listed. -/
theorem AreDocuments.lists_files (h : es.AreDocuments) (extension : Text) :
    Lists extension es.text? (es.files extension) := by
  have hfilter : (es.filter fun e => e.2.isFile && Text.endsWith extension e.1).map Prod.fst =
      (es.map Prod.fst).filter (Text.endsWith extension) := by
    rw [List.filter_map]
    congr 1
    apply List.filter_congr
    intro e he
    obtain ⟨content, hcontent⟩ := h.documents e he
    simp [hcontent, DirEntry.isFile]
  rw [files, hfilter]
  refine ⟨increasing_mergeSort (h.nodup.filter _), fun name => ?_⟩
  rw [(List.mergeSort_perm _ _).mem_iff, List.mem_filter, h.isSome_text?_iff]

end DirEntries

end StyleSnippet
