import StyleSnippet.Proofs.Store.Entries

/-!
# A directory is a map of texts

Asked for one thing after another, a directory of texts answers what a map from names to texts
would, and tells of a change when the map would change: after each write, and after each deletion
and each renaming of a text that is there. A name that is no plain file name is refused, and nothing
happens.

The map is told by what it answers to a single request. A directory takes the same step as its map,
and hence makes the same run.
-/

set_option autoImplicit false

namespace StyleSnippet

/-! ## Requests -/

namespace Storage

/-- What a store is asked for. -/
inductive Request
  | list
  | read (name : Text)
  | write (name content : Text)
  | delete (name : Text)
  | rename (source target : Text)

/-- The names that a request gives. -/
def Request.names : Request → List Text
  | .list => []
  | .read name | .write name _ | .delete name => [name]
  | .rename source target => [source, target]

/-- What a store answers to a request that it carries out. -/
inductive Answer
  | names (names : List Text)
  | text (text : Text)
  | done
  deriving DecidableEq

variable {σ : Type} [Storage σ]

/-- The answer to a request, and the store after it. -/
def perform (s : σ) : Request → Except StoreError Answer × σ
  | .list => ((list s).map .names, s)
  | .read name => ((read name s).map .text, s)
  | .write name content => ((write name content s).1.map fun _ => .done, (write name content s).2)
  | .delete name => ((delete name s).1.map fun _ => .done, (delete name s).2)
  | .rename source target =>
    ((rename source target s).1.map fun _ => .done, (rename source target s).2)

/-- The answers to a list of requests, and the store after them. -/
def run (s : σ) : List Request → List (Except StoreError Answer) × σ
  | [] => ([], s)
  | request :: requests =>
    let rest := run (perform s request).2 requests
    ((perform s request).1 :: rest.1, rest.2)

end Storage

open Storage (Request Answer)

/-! ## Maps -/

/-- A map from names to texts, and the number of changes that were made to it. -/
structure Shelf where
  texts : Text → Option Text
  changes : Nat

namespace Shelf

/-- What a map answers to a request, and the map after it. -/
inductive Step (extension : Text) (m : Shelf) :
    Request → Except StoreError Answer → Shelf → Prop
  /-- The first name that is no plain file name is refused. -/
  | refused {request : Request} {name : Text} :
    request.names.find? (!isPlainName ·) = some name →
    Step extension m request (.error (.invalidName name)) m
  | list {names : List Text} : Lists extension m.texts names →
    Step extension m .list (.ok (.names names)) m
  | read {name : Text} : isPlainName name →
    Step extension m (.read name) (.ok (.text ((m.texts name).getD []))) m
  | write {name content : Text} : isPlainName name →
    Step extension m (.write name content) (.ok .done)
      ⟨Function.update m.texts name (some content), m.changes + 1⟩
  | delete {name text : Text} : isPlainName name → m.texts name = some text →
    Step extension m (.delete name) (.ok .done)
      ⟨Function.update m.texts name none, m.changes + 1⟩
  | deleteMissing {name : Text} : isPlainName name → m.texts name = none →
    Step extension m (.delete name) (.ok .done) m
  /-- The text goes over the one at the target. It stays if the names are the same. -/
  | rename {source target text : Text} : isPlainName source → isPlainName target →
    m.texts source = some text →
    Step extension m (.rename source target) (.ok .done)
      ⟨Function.update (Function.update m.texts source none) target (some text), m.changes + 1⟩
  | renameMissing {source target : Text} : isPlainName source → isPlainName target →
    m.texts source = none → Step extension m (.rename source target) (.ok .done) m

/-- What a map answers to a list of requests, and the map after them. -/
inductive Run (extension : Text) :
    Shelf → List Request → List (Except StoreError Answer) → Shelf → Prop
  | nil (m : Shelf) : Run extension m [] [] m
  | cons {m next last : Shelf} {request : Request} {answer : Except StoreError Answer}
    {requests : List Request} {answers : List (Except StoreError Answer)} :
    Step extension m request answer next → Run extension next requests answers last →
    Run extension m (request :: requests) (answer :: answers) last

end Shelf

/-! ## Directories of texts -/

/-- A name is not too long just if it is as short as a directory asks. -/
theorem isTooLong_eq_false_iff {name : Text} :
    Directory.isTooLong name = false ↔ Text.utf8Length name ≤ Directory.maxNameLength := by
  rw [Directory.isTooLong, decide_eq_false_iff_not, Nat.not_lt]

/-- A plain file name is accepted as it stands. -/
theorem plainName_of_isPlainName {name : Text} (h : isPlainName name = true) :
    plainName name = .ok name := by
  rw [plainName, if_pos h]

/-- A name that is no plain file name is refused. -/
theorem plainName_of_refused {name : Text} (h : isPlainName name = false) :
    plainName name = .error (.invalidName name) := by
  rw [plainName, h]
  rfl

namespace Directory

variable {d : Directory} {name content source target : Text}

/-- The map that a directory is. -/
def shelf (d : Directory) : Shelf := ⟨d.texts, d.reloads⟩

/-- There is no directory yet and nothing bars the way to one, or there is one that holds texts
only. -/
def HoldsTexts (d : Directory) : Prop :=
  d.state = .missing ∨ ∃ es, d.state = .entries es ∧ es.AreDocuments

/-- What is found in a directory that holds texts only is documents. -/
theorem HoldsTexts.found (h : d.HoldsTexts) : d.state.found.AreDocuments := by
  rcases h with hstate | ⟨es, hstate, hes⟩
  · rw [hstate]
    exact DirEntries.areDocuments_nil
  · rw [hstate]
    exact hes

/-- A change to other documents leaves a directory that holds texts only. -/
theorem HoldsTexts.changed {es : DirEntries} (hes : es.AreDocuments) : (d.changed es).HoldsTexts :=
  .inr ⟨es, rfl, hes⟩

/-- A name that is short enough for a file is short enough for a path. -/
theorem exceedsPath_of_short (h : isTooLong name = false) : exceedsPath name = false := by
  rw [isTooLong_eq_false_iff, maxNameLength] at h
  rw [exceedsPath, decide_eq_false_iff_not, maxPathLength]
  omega

/-- A change is counted, and it shows other texts. -/
@[simp]
theorem shelf_changed (d : Directory) (es : DirEntries) :
    (d.changed es).shelf = ⟨es.text?, d.reloads + 1⟩ := rfl

/-! ### What the operations do -/

/-- A directory that holds texts only lists the names that end in its extension. -/
theorem list_eq (h : d.HoldsTexts) : d.list = .ok (d.state.found.files d.extension) := by
  rcases h with hstate | ⟨es, hstate, -⟩
  · simp [list, hstate, DirState.found, DirEntries.files]
  · simp only [list, hstate, DirState.found]

section Plain

variable (h : d.HoldsTexts) (hplain : isPlainName name = true) (hshort : isTooLong name = false)

include h hplain hshort

/-- What is read under a name is its text, and nothing if it has none. -/
theorem read_eq : d.read name = .ok ((d.texts name).getD []) := by
  have hlook := h.found.get?_eq name
  simp only [read, plainName_of_isPlainName hplain, bind, Except.bind]
  rcases h with hstate | ⟨es, hstate, -⟩
  · simp only [hstate, exceedsPath_of_short hshort, texts]
    rfl
  · rw [hstate] at hlook
    simp only [hstate, hshort, texts, DirState.found] at hlook ⊢
    rw [hlook]
    cases es.text? name <;> rfl

/-- A write puts its text under its name. -/
theorem write_eq (content : Text) : d.write name content =
    (.ok (), d.changed (d.state.found.put name (.document content))) := by
  have hlook := h.found.get?_eq name
  have hfile : (d.state.found.get? name).any (fun e => !e.isFile) = false := by
    rw [hlook]
    cases d.state.found.text? name <;> rfl
  rw [write, plainName_of_isPlainName hplain]
  rcases h with hstate | ⟨es, hstate, -⟩
  · simp only [hstate, writeIn, hshort, DirState.found] at hfile ⊢
    rw [hfile]
    rfl
  · simp only [hstate, writeIn, hshort, DirState.found] at hfile ⊢
    rw [hfile]
    rfl

/-- A deletion takes a text away, and where there is none it changes nothing. -/
theorem delete_eq : d.delete name = (.ok (),
    if (d.texts name).isSome then d.changed (d.state.found.erase name) else d) := by
  have hlook := h.found.get?_eq name
  rw [delete, plainName_of_isPlainName hplain]
  rcases h with hstate | ⟨es, hstate, -⟩
  · simp only [hstate, exceedsPath_of_short hshort, texts]
    rfl
  · rw [hstate] at hlook
    simp only [hstate, hshort, texts, DirState.found] at hlook ⊢
    rw [hlook]
    cases es.text? name <;> rfl

end Plain

/-- A renaming moves a text, and where there is none it changes nothing. -/
theorem rename_eq (h : d.HoldsTexts) (hsource : isPlainName source = true)
    (htarget : isPlainName target = true) (hshort : isTooLong target = false) :
    d.rename source target = (.ok (),
      match d.texts source with
      | none => d
      | some text => d.changed (if source = target then d.state.found
          else d.state.found.move source target (.document text))) := by
  have hlook := h.found.get?_eq
  simp only [rename, plainName_of_isPlainName hsource, plainName_of_isPlainName htarget]
  rcases h with hstate | ⟨es, hstate, -⟩
  · simp only [hstate, texts]
    rfl
  · simp only [hstate, texts, DirState.found] at hlook ⊢
    rw [hlook source]
    cases es.text? source with
    | none => rfl
    | some text =>
      -- What is at the target is a file, and a file goes over a file.
      have hover : (es.get? target).all (DirEntry.document text).canReplace = true := by
        rw [hlook target]
        cases es.text? target <;> rfl
      by_cases hsame : source = target
      · simp [renameIn, hshort, hsame]
      · simp [renameIn, hshort, hsame, hover]

/-- A request with a name that is no plain file name is refused, and nothing happens. -/
theorem perform_of_refused {request : Request}
    (h : request.names.find? (!isPlainName ·) = some name) :
    Storage.perform d request = (.error (.invalidName name), d) := by
  have hname : isPlainName name = false := by simpa using List.find?_some h
  cases request with
  | list => cases h
  | read other | write other content | delete other =>
    obtain rfl : name = other := List.mem_singleton.mp (List.mem_of_find?_eq_some h)
    simp only [Storage.perform, Storage.read, Storage.write, Storage.delete, read, write, delete,
      plainName_of_refused hname]
    rfl
  | rename source target =>
    simp only [Storage.perform, Storage.rename, rename]
    cases hsource : isPlainName source with
    | false =>
      obtain rfl : source = name := by simpa [Request.names, hsource] using h
      rw [plainName_of_refused hsource]
      rfl
    | true =>
      have hrest : [target].find? (!isPlainName ·) = some name := by
        simpa [Request.names, hsource] using h
      obtain rfl : name = target := List.mem_singleton.mp (List.mem_of_find?_eq_some hrest)
      rw [plainName_of_isPlainName hsource, plainName_of_refused hname]
      rfl

/-! ### Steps -/

/-- A directory takes the step that its map takes, and holds texts only behind it. -/
structure Follows (d : Directory) (request : Request) (answer : Except StoreError Answer)
    (next : Directory) : Prop where
  step : Shelf.Step d.extension d.shelf request answer next.shelf
  holdsTexts : next.HoldsTexts
  extension : next.extension = d.extension

/-- A listing follows the map. -/
theorem follows_list (h : d.HoldsTexts) :
    d.Follows .list (Storage.perform d .list).1 (Storage.perform d .list).2 := by
  have hperform : Storage.perform d .list =
      (.ok (.names (d.state.found.files d.extension)), d) := by
    simp only [Storage.perform, Storage.list, list_eq h]
    rfl
  rw [hperform]
  exact ⟨.list (h.found.lists_files d.extension), h, rfl⟩

section Plain

variable (h : d.HoldsTexts) (hplain : isPlainName name = true) (hshort : isTooLong name = false)

include h hplain hshort

/-- A reading follows the map. -/
theorem follows_read :
    d.Follows (.read name) (Storage.perform d (.read name)).1
      (Storage.perform d (.read name)).2 := by
  have hperform : Storage.perform d (.read name) = (.ok (.text ((d.texts name).getD [])), d) := by
    simp only [Storage.perform, Storage.read, read_eq h hplain hshort]
    rfl
  rw [hperform]
  exact ⟨.read hplain, h, rfl⟩

/-- A write follows the map. -/
theorem follows_write (content : Text) : d.Follows (.write name content)
    (Storage.perform d (.write name content)).1 (Storage.perform d (.write name content)).2 := by
  simp only [Storage.perform, Storage.write, write_eq h hplain hshort]
  refine ⟨?_, .changed (h.found.put name content), rfl⟩
  rw [shelf_changed, DirEntries.text?_put]
  exact .write hplain

/-- A deletion follows the map. -/
theorem follows_delete : d.Follows (.delete name)
    (Storage.perform d (.delete name)).1 (Storage.perform d (.delete name)).2 := by
  simp only [Storage.perform, Storage.delete, delete_eq h hplain hshort]
  cases htext : d.texts name with
  | none => exact ⟨.deleteMissing hplain htext, h, rfl⟩
  | some text =>
    refine ⟨?_, .changed (h.found.erase name), rfl⟩
    rw [Option.isSome_some, if_pos rfl, shelf_changed, DirEntries.text?_erase]
    exact .delete hplain htext

end Plain

/-- A renaming follows the map. -/
theorem follows_rename (h : d.HoldsTexts) (hsource : isPlainName source = true)
    (htarget : isPlainName target = true) (hshort : isTooLong target = false) :
    d.Follows (.rename source target) (Storage.perform d (.rename source target)).1
      (Storage.perform d (.rename source target)).2 := by
  simp only [Storage.perform, Storage.rename, rename_eq h hsource htarget hshort]
  cases htext : d.texts source with
  | none => exact ⟨.renameMissing hsource htarget htext, h, rfl⟩
  | some text =>
    have hstep : Shelf.Step d.extension d.shelf (.rename source target) (.ok .done)
        ⟨Function.update (Function.update d.texts source none) target (some text),
          d.reloads + 1⟩ := .rename hsource htarget htext
    by_cases hsame : source = target
    · -- The text is put back where it was.
      subst hsame
      have hback : Function.update d.texts source (some text) = d.texts :=
        Function.update_eq_self_iff.mpr htext.symm
      rw [Function.update_idem, hback] at hstep
      simp only [if_true]
      exact ⟨hstep, .changed h.found, rfl⟩
    · simp only [if_neg hsame]
      refine ⟨?_, .changed ((h.found.erase source).put target text), rfl⟩
      rw [shelf_changed, DirEntries.move, DirEntries.text?_put, DirEntries.text?_erase]
      exact hstep

/-- A directory takes the same step as its map. -/
theorem HoldsTexts.follows (h : d.HoldsTexts) (request : Request)
    (hshort : ∀ name ∈ request.names, Text.utf8Length name ≤ maxNameLength) :
    d.Follows request (Storage.perform d request).1 (Storage.perform d request).2 := by
  simp only [← isTooLong_eq_false_iff] at hshort
  cases hrefused : request.names.find? (!isPlainName ·) with
  | some name =>
    rw [perform_of_refused hrefused]
    exact ⟨.refused hrefused, h, rfl⟩
  | none =>
    have hplain : ∀ name ∈ request.names, isPlainName name = true := by simpa using hrefused
    cases request with
    | list => exact follows_list h
    | read name => exact follows_read h (hplain name (.head _)) (hshort name (.head _))
    | write name content =>
      exact follows_write h (hplain name (.head _)) (hshort name (.head _)) content
    | delete name => exact follows_delete h (hplain name (.head _)) (hshort name (.head _))
    | rename source target =>
      have hmem : target ∈ (Request.rename source target).names := .tail _ (.head _)
      exact follows_rename h (hplain source (.head _)) (hplain target hmem) (hshort target hmem)

/-! ### Runs -/

/-- A directory that holds texts only answers a run as its map does, and is that map behind it. -/
theorem HoldsTexts.run {d : Directory} (h : d.HoldsTexts) (requests : List Request)
    (hshort : ∀ request ∈ requests, ∀ name ∈ request.names,
      Text.utf8Length name ≤ maxNameLength) :
    Shelf.Run d.extension d.shelf requests (Storage.run d requests).1
      (Storage.run d requests).2.shelf := by
  induction requests generalizing d with
  | nil => exact .nil d.shelf
  | cons request requests ih =>
    have hfirst := h.follows request (hshort request (.head _))
    have hrest := ih hfirst.holdsTexts fun r hr => hshort r (.tail _ hr)
    rw [hfirst.extension] at hrest
    exact .cons hfirst.step hrest

/-- A text is found under a name just if the directory has the entry. -/
theorem texts_eq_some_iff (h : d.HoldsTexts) :
    d.texts name = some content ↔ ∃ es, d.state = .entries es ∧ (name, .document content) ∈ es := by
  rcases h with hstate | ⟨es, hstate, hes⟩
  · simp [texts, hstate, DirState.found, DirEntries.text?, DirEntries.get?]
  · simp [texts, hstate, DirState.found, hes.text?_eq_some_iff]

/-- A directory that is missing, or holds texts only, answers to any requests with names that are
short enough what a map answers: the map that has just the texts of its files. The map behind the
requests has what the directory then has, and both have counted the same changes. -/
theorem run_refines_shelf (d : Directory) (requests : List Request) (h : d.HoldsTexts)
    (hshort : ∀ request ∈ requests, ∀ name ∈ request.names,
      Text.utf8Length name ≤ maxNameLength) :
    (∀ name content, d.shelf.texts name = some content ↔
      ∃ es, d.state = .entries es ∧ (name, .document content) ∈ es) ∧
    d.shelf.changes = d.reloads ∧
    Shelf.Run d.extension d.shelf requests (Storage.run d requests).1
      (Storage.run d requests).2.shelf :=
  ⟨fun _ _ => texts_eq_some_iff h, rfl, h.run requests hshort⟩

/-- Requests to a directory that is missing. Of the names, one is no plain file name, and one stands
for a text that is gone. -/
def sampleRequests : List Request :=
  [.read "a.css", .write "a.css" "x", .write "b.css" "y", .rename "a.css" "b.css",
    .rename "b.css" "b.css", .read "b.css", .rename "b.css" "c/d", .delete "a.css"]

/-- A missing directory is asked to write, rename and delete, and answers as the empty map does. -/
theorem run_refines_shelf_sample :
    ({} : Directory).HoldsTexts ∧
    (∀ request ∈ sampleRequests, ∀ name ∈ request.names,
      Text.utf8Length name ≤ maxNameLength) ∧
    Shelf.Run ".css" ⟨fun _ => none, 0⟩ sampleRequests
      [.ok (.text []), .ok .done, .ok .done, .ok .done, .ok .done, .ok (.text "x"),
        .error (.invalidName "c/d"), .ok .done]
      (Storage.run ({} : Directory) sampleRequests).2.shelf ∧
    (Storage.run ({} : Directory) sampleRequests).2 =
      { state := .entries [("b.css", .document "x")], reloads := 4 } := by
  have h : ({} : Directory).HoldsTexts := .inl rfl
  have hshort : ∀ request ∈ sampleRequests, ∀ name ∈ request.names,
      Text.utf8Length name ≤ maxNameLength := by decide
  refine ⟨h, hshort, ?_, by decide⟩
  exact (run_refines_shelf {} sampleRequests h hshort).2.2

end Directory

end StyleSnippet
