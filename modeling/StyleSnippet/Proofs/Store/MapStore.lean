import Mathlib.Logic.Function.Basic
import StyleSnippet.Store.Directory

/-!
# Stores that act as a map

A store acts as a map from names to texts if each write and each deletion does to the map what it is
meant to, or fails and leaves the map as it was. When it fails is left open.

A directory acts as a map, whatever stands in its way. The texts are those of its files that hold
text, so a directory that is not there yet has none.
-/

set_option autoImplicit false

namespace StyleSnippet

/-! ## Results -/

/-- A result is one. -/
@[simp]
theorem isOk_ok {ε α : Type} (a : α) : (Except.ok a : Except ε α).isOk = true := rfl

/-- An error is no result. -/
@[simp]
theorem isOk_error {ε α : Type} (e : ε) : (Except.error e : Except ε α).isOk = false := rfl

/-- A result that is changed stays a result. -/
@[simp]
theorem isOk_map {ε α β : Type} (f : α → β) (r : Except ε α) : (r.map f).isOk = r.isOk := by
  cases r <;> rfl

/-! ## Stores -/

/-- A store that acts as a map from names to texts. -/
class MapStore (σ : Type) extends Storage σ where
  /-- The text under a name, if there is one. -/
  texts : σ → Text → Option Text
  texts_write : ∀ (name content : Text) (s : σ), texts (write name content s).2 =
    if (write name content s).1.isOk then Function.update (texts s) name (some content) else texts s
  texts_delete : ∀ (name : Text) (s : σ), texts (delete name s).2 =
    if (delete name s).1.isOk then Function.update (texts s) name none else texts s

/-- A write that succeeds puts its text under its name. -/
theorem MapStore.texts_write_of_ok {σ : Type} [MapStore σ] {name content : Text} {s : σ}
    (h : (Storage.write name content s).1 = .ok ()) :
    texts (Storage.write name content s).2 = Function.update (texts s) name (some content) := by
  rw [texts_write, h]
  rfl

/-- A write that fails leaves the texts as they are. -/
theorem MapStore.texts_write_of_error {σ : Type} [MapStore σ] {name content : Text} {s : σ}
    {e : StoreError} (h : (Storage.write name content s).1 = .error e) :
    texts (Storage.write name content s).2 = texts s := by
  rw [texts_write, h]
  rfl

/-! ## Entries of a directory -/

/-- The text that an entry holds, if it is a file that holds text. -/
def DirEntry.text? : DirEntry → Option Text
  | .document content => some content
  | .binary | .folder _ => none

namespace DirEntries

/-- The first entry with a name hides the others. -/
theorem get?_cons (e : Text × DirEntry) (es : DirEntries) :
    get? (e :: es) = Function.update (get? es) e.1 (some e.2) := by
  funext m
  obtain ⟨name, entry⟩ := e
  by_cases h : m = name
  · simp [get?, h]
  · have hbeq : (m == name) = false := by simp [h]
    simp [get?, List.lookup_cons, hbeq, h]

/-- A name that is taken out has no entry, and the other names keep theirs. -/
theorem get?_erase (es : DirEntries) (name : Text) :
    (es.erase name).get? = Function.update es.get? name none := by
  induction es with
  | nil => exact (Function.update_eq_self name (get? [])).symm
  | cons e es ih =>
    by_cases h : e.1 = name
    · -- The entry goes, and what it hid behind it is gone as well.
      have : erase (e :: es) name = erase es name := by simp [erase, h]
      rw [this, ih, get?_cons, h, Function.update_idem]
    · have : erase (e :: es) name = e :: erase es name := by simp [erase, h]
      rw [this, get?_cons, ih, get?_cons, Function.update_comm h]

/-- A name has the entry that was put under it, and the other names keep theirs. -/
theorem get?_put (es : DirEntries) (name : Text) (entry : DirEntry) :
    (es.put name entry).get? = Function.update es.get? name (some entry) := by
  rw [put, get?_cons, get?_erase, Function.update_idem]

/-- The text of the file with a name. -/
def text? (es : DirEntries) (name : Text) : Option Text := (es.get? name).bind DirEntry.text?

/-- Where one entry changes, one text changes. -/
theorem text?_eq_of_get?_eq {es es' : DirEntries} {name : Text} {entry : Option DirEntry}
    (h : es'.get? = Function.update es.get? name entry) :
    es'.text? = Function.update es.text? name (entry.bind DirEntry.text?) := by
  funext m
  by_cases hm : m = name
  · subst hm
    simp [text?, h]
  · simp [text?, h, hm]

/-- A text that is put under a name is the one that is found there. -/
theorem text?_put (es : DirEntries) (name content : Text) :
    (es.put name (.document content)).text? = Function.update es.text? name (some content) :=
  text?_eq_of_get?_eq (es.get?_put name _)

/-- A name that is taken out has no text. -/
theorem text?_erase (es : DirEntries) (name : Text) :
    (es.erase name).text? = Function.update es.text? name none :=
  text?_eq_of_get?_eq (es.get?_erase name)

end DirEntries

/-! ## Directories -/

/-- A plain name stands for itself. -/
theorem eq_of_plainName {name plain : Text} (h : plainName name = .ok plain) : name = plain := by
  unfold plainName at h
  split at h
  · exact Except.ok.inj h
  · cases h

/-- The entries that there are. -/
def DirState.found : DirState → DirEntries
  | .entries es => es
  | .missing | .unmakeable | .blocked => []

namespace Directory

/-- The text of the file with a name. -/
def texts (d : Directory) : Text → Option Text := d.state.found.text?

/-- The texts of a directory are those of the entries that are found in it. -/
theorem texts_of_state {d : Directory} {state : DirState} (h : d.state = state) :
    d.texts = state.found.text? := by
  rw [texts, h]

/-- A write among the entries that fails has made the directory, but no text. -/
theorem texts_writeIn (name content : Text) (d : Directory) (es : DirEntries) :
    (writeIn name content d es).2.texts = if (writeIn name content d es).1.isOk then
      Function.update es.text? name (some content) else es.text? := by
  unfold writeIn
  split
  · rfl
  · exact es.text?_put name content

/-- A write changes the texts as it says if it succeeds, and not at all if it fails. -/
theorem texts_write (name content : Text) (d : Directory) :
    (d.write name content).2.texts = if (d.write name content).1.isOk then
      Function.update d.texts name (some content) else d.texts := by
  unfold write
  split
  · rfl
  · next plain hplain =>
    obtain rfl := eq_of_plainName hplain
    split
    · next hstate =>
      rw [texts_of_state hstate]
      exact texts_writeIn name content d []
    · next hstate =>
      rw [texts_of_state hstate]
      rfl
    · rfl
    · next es hstate =>
      rw [texts_of_state hstate]
      exact texts_writeIn name content d es

/-- A name without a text has lost none by its deletion. -/
theorem texts_eq_update_none {name : Text} {d : Directory} (h : d.state.found.get? name = none) :
    d.texts = Function.update d.texts name none := by
  rw [eq_comm, Function.update_eq_self_iff, texts, DirEntries.text?, h, Option.bind_none]

/-- A deletion changes the texts as it says if it succeeds, and not at all if it fails. -/
theorem texts_delete (name : Text) (d : Directory) :
    (d.delete name).2.texts = if (d.delete name).1.isOk then
      Function.update d.texts name none else d.texts := by
  unfold delete
  split
  · rfl
  · next plain hplain =>
    obtain rfl := eq_of_plainName hplain
    split
    · next hstate =>
      split
      · rfl
      · exact texts_eq_update_none (by rw [hstate]; rfl)
    · next hstate =>
      split
      · rfl
      · exact texts_eq_update_none (by rw [hstate]; rfl)
    · rfl
    · next es hstate =>
      split
      · rfl
      · split
        · next hget => exact texts_eq_update_none (by rw [hstate]; exact hget)
        · split
          · rw [texts_of_state hstate]
            exact es.text?_erase name
          · rfl

/-- A directory is a map of texts. -/
instance : MapStore Directory where
  texts := texts
  texts_write := texts_write
  texts_delete := texts_delete

end Directory

/-! ## Faults -/

/-- A store in which something goes wrong from time to time, whatever it is asked for. -/
structure Faulty (σ : Type) where
  store : σ
  /-- For each change to come, whether it fails. -/
  faults : List Bool

namespace Faulty

variable {σ : Type}

/-- Makes a change, unless it is one that fails. -/
def change (f : σ → Except StoreError Unit × σ) (s : Faulty σ) :
    Except StoreError Unit × Faulty σ :=
  if s.faults.headD false then (.error .io, { s with faults := s.faults.tail })
  else ((f s.store).1, { store := (f s.store).2, faults := s.faults.tail })

/-- A store with faults does what the store in it does, unless a fault is due. -/
instance [Storage σ] : Storage (Faulty σ) where
  list s := Storage.list s.store
  read name s := Storage.read name s.store
  write name content := change (Storage.write name content)
  delete name := change (Storage.delete name)
  rename source target := change (Storage.rename source target)

/-- What a change does to a view of the store, it does if it does not fail. -/
theorem view_change {α : Type} (view : σ → α) {f : σ → Except StoreError Unit × σ} {g : α → α}
    (hf : ∀ s, view (f s).2 = if (f s).1.isOk then g (view s) else view s) (s : Faulty σ) :
    view (change f s).2.store =
      if (change f s).1.isOk then g (view s.store) else view s.store := by
  unfold change
  split
  · rfl
  · exact hf s.store

/-- A store that acts as a map still does so when some of its changes fail. -/
instance [MapStore σ] : MapStore (Faulty σ) where
  texts s := MapStore.texts s.store
  texts_write name content :=
    view_change (g := (Function.update · name (some content))) MapStore.texts
      (MapStore.texts_write name content)
  texts_delete name :=
    view_change (g := (Function.update · name none)) MapStore.texts (MapStore.texts_delete name)

end Faulty

end StyleSnippet
