import StyleSnippet.Proofs.Store.MapStore
import StyleSnippet.Session.Basic

/-!
# Saving loses no text

A save makes two changes to the store: the text is written under its new name, and what is stored
under the name before is deleted. Each of them can fail, so there are three ways for a save to end:
with both changes made, with none, or with the first one only.

Over a run of a session this gives an invariant: what was written last is in the store, under the
name that the session has.
-/

set_option autoImplicit false

namespace StyleSnippet

namespace Session

variable {σ : Type} [MapStore σ]

/-- The texts in the store of a session. -/
def texts (s : Session σ) : Text → Option Text := MapStore.texts s.store

/-! ## The deletion under the name before -/

/-- If the deletion succeeds, it takes the text under the name before, unless that is the new name,
and no other. -/
theorem texts_dropPrevious (previous : Option Text) (file : Text) (store : σ) (other : Text) :
    MapStore.texts (dropPrevious previous file store).2 other =
      if (dropPrevious previous file store).1.isOk ∧ other ∈ previous ∧ other ≠ file then none
      else MapStore.texts store other := by
  unfold dropPrevious
  split
  · simp
  · next old =>
    split
    · next h =>
      have hnot : ¬ (other ∈ some old ∧ other ≠ file) := by
        rintro ⟨hold, hne⟩
        exact hne ((Option.mem_some.mp hold).symm.trans h)
      rw [if_neg fun hall => hnot hall.2]
    · next h =>
      rw [MapStore.texts_delete]
      by_cases hok : (Storage.delete old store).1.isOk
      · by_cases hother : other = old
        · subst hother
          simp [hok, h]
        · simp [hok, hother, Ne.symm hother]
      · simp [hok]

/-- A deletion that fails is one under a previous name, which is not the new one. -/
theorem dropPrevious_eq_error {previous : Option Text} {file : Text} {store : σ} {e : StoreError}
    (h : (dropPrevious previous file store).1 = .error e) :
    ∃ old ∈ previous, old ≠ file ∧ (Storage.delete old store).1 = .error e := by
  unfold dropPrevious at h
  split at h
  · cases h
  · next old =>
    split at h
    · cases h
    · next hne => exact ⟨old, rfl, hne, h⟩

/-! ## The ways for a save to end -/

/-- The snippet is saved: its text is under the new name, and no longer under the name before. -/
structure Saved (s : Session σ) (file : Text) (s' : Session σ) : Prop where
  content : s'.content = s.content
  name : s'.name = some file
  text : s'.texts file = some s.content
  previous : ∀ old ∈ s.name, old ≠ file → s'.texts old = none
  others : ∀ other, other ≠ file → other ∉ s.name → s'.texts other = s.texts other

/-- Nothing is saved, and the session and the texts in the store are as they were. -/
structure Unsaved (s s' : Session σ) : Prop where
  content : s'.content = s.content
  name : s'.name = s.name
  texts : s'.texts = s.texts

/-- The text is under the new name, but the deletion under the name before failed with an error, so
that this text is there as well. -/
structure Undeleted (s : Session σ) (file : Text) (e : StoreError) (s' : Session σ) : Prop where
  written : (Storage.write file s.content s.store).1 = .ok ()
  failed : ∃ old ∈ s.name, old ≠ file ∧
    (Storage.delete old (Storage.write file s.content s.store).2).1 = .error e
  content : s'.content = s.content
  name : s'.name = some file
  text : s'.texts file = some s.content
  others : ∀ other, other ≠ file → s'.texts other = s.texts other

/-! ## How a save ends -/

/-- A save under a name that is refused leaves the session alone. -/
theorem save_of_refused (s : Session σ) {name : Text} {e : StoreError}
    (h : snippetFileName name = .error e) : s.save name = (.error e, s) := by
  simp only [save, h]

section NotRefused

variable {s : Session σ} {name file : Text} (hfile : snippetFileName name = .ok file)

include hfile

/-- A save whose write fails has nothing to delete. -/
theorem save_of_write_error {e : StoreError}
    (hwrite : (Storage.write file s.content s.store).1 = .error e) :
    s.save name = (.error e, { s with store := (Storage.write file s.content s.store).2 }) := by
  rcases h : Storage.write file s.content s.store with ⟨result, store⟩
  rw [h] at hwrite
  subst hwrite
  simp only [save, hfile, h]

/-- A save whose write fails leaves name and texts as they are. -/
theorem unsaved_of_write_error {e : StoreError}
    (hwrite : (Storage.write file s.content s.store).1 = .error e) :
    s.Unsaved (s.save name).2 := by
  rw [save_of_write_error hfile hwrite]
  exact ⟨rfl, rfl, MapStore.texts_write_of_error hwrite⟩

variable (hwrite : (Storage.write file s.content s.store).1 = .ok ())

include hwrite

/-- A save whose write succeeds is one under the new name, however the deletion ends. -/
theorem save_of_write :
    s.save name =
      let dropped := dropPrevious s.name file (Storage.write file s.content s.store).2
      (dropped.1.map fun _ => file, { s with store := dropped.2, name := some file }) := by
  rcases h : Storage.write file s.content s.store with ⟨result, store⟩
  rw [h] at hwrite
  subst hwrite
  simp only [save, hfile, h]

/-- A save whose write succeeds keeps the text of the session. -/
theorem content_save_of_write : (s.save name).2.content = s.content := by
  rw [save_of_write hfile hwrite]

/-- Behind a save whose write succeeds, the session has the new name. -/
theorem name_save_of_write : (s.save name).2.name = some file := by
  rw [save_of_write hfile hwrite]

/-- The texts behind a save whose write succeeds. Whether the deletion does too is told by the
result of the save. -/
theorem texts_save_of_write (other : Text) :
    (s.save name).2.texts other =
      if other = file then some s.content
      else if (s.save name).1.isOk ∧ other ∈ s.name then none
      else s.texts other := by
  rw [save_of_write hfile hwrite]
  simp only [texts, texts_dropPrevious, MapStore.texts_write_of_ok hwrite]
  by_cases h : other = file
  · subst h
    simp
  · simp [h]

/-- Behind a save whose write succeeds, the text of the session is stored under the new name. -/
theorem text_save_of_write : (s.save name).2.texts file = some s.content := by
  rw [texts_save_of_write hfile hwrite, if_pos rfl]

/-- A save that succeeds is one that saved. -/
theorem saved_of_write (hok : (s.save name).1.isOk) : s.Saved file (s.save name).2 where
  content := content_save_of_write hfile hwrite
  name := name_save_of_write hfile hwrite
  text := text_save_of_write hfile hwrite
  previous old hold hne := by
    rw [texts_save_of_write hfile hwrite, if_neg hne, if_pos ⟨hok, hold⟩]
  others other hne hother := by
    rw [texts_save_of_write hfile hwrite, if_neg hne, if_neg fun h => hother h.2]

/-- A save that fails although its write succeeds is one that did not delete. -/
theorem undeleted_of_write {e : StoreError} (herror : (s.save name).1 = .error e) :
    s.Undeleted file e (s.save name).2 where
  written := hwrite
  failed := by
    rw [save_of_write hfile hwrite] at herror
    refine dropPrevious_eq_error ?_
    cases h : (dropPrevious s.name file (Storage.write file s.content s.store).2).1 with
    | ok _ => simp [h, Except.map] at herror
    | error e' => simpa [h, Except.map] using herror
  content := content_save_of_write hfile hwrite
  name := name_save_of_write hfile hwrite
  text := text_save_of_write hfile hwrite
  others other hne := by
    rw [texts_save_of_write hfile hwrite, if_neg hne, herror]
    simp

/-- The name that a save tells is the one that it wrote under. -/
theorem eq_of_save_eq_ok {told : Text} (h : (s.save name).1 = .ok told) : told = file := by
  rw [save_of_write hfile hwrite] at h
  cases hdrop : (dropPrevious s.name file (Storage.write file s.content s.store).2).1 with
  | error e => simp [hdrop, Except.map] at h
  | ok _ => simpa [hdrop, Except.map] using h.symm

end NotRefused

/-- A save that succeeds has saved the snippet under the name that it tells. -/
theorem saved_of_save_eq_ok {s s' : Session σ} {name file : Text}
    (h : s.save name = (.ok file, s')) : snippetFileName name = .ok file ∧ s.Saved file s' := by
  cases hfile : snippetFileName name with
  | error e =>
    rw [save_of_refused s hfile] at h
    cases h
  | ok file' =>
    cases hwrite : (Storage.write file' s.content s.store).1 with
    | error e =>
      rw [save_of_write_error hfile hwrite] at h
      cases h
    | ok _ =>
      obtain rfl : file = file' := eq_of_save_eq_ok hfile hwrite (by rw [h])
      have hsaved := saved_of_write hfile hwrite (by rw [h]; rfl)
      rw [h] at hsaved
      exact ⟨rfl, hsaved⟩

/-- A save that fails has either done nothing, or all but the deletion under the name before. -/
theorem of_save_eq_error {s s' : Session σ} {name : Text} {e : StoreError}
    (h : s.save name = (.error e, s')) :
    s.Unsaved s' ∨ ∃ file, snippetFileName name = .ok file ∧ s.Undeleted file e s' := by
  cases hfile : snippetFileName name with
  | error e' =>
    rw [save_of_refused s hfile] at h
    cases h
    exact .inl ⟨rfl, rfl, rfl⟩
  | ok file =>
    cases hwrite : (Storage.write file s.content s.store).1 with
    | error e' =>
      have hunsaved := unsaved_of_write_error hfile hwrite
      rw [h] at hunsaved
      exact .inl hunsaved
    | ok _ =>
      have hundeleted := undeleted_of_write hfile hwrite (e := e) (by rw [h])
      rw [h] at hundeleted
      exact .inr ⟨file, rfl, hundeleted⟩

/-! ## Runs -/

/-- What a session is asked for. -/
inductive Request
  | setContent (content : Text)
  | apply (config : Config)
  | save (name : Text)

/-- The session behind a request. -/
def perform (s : Session σ) : Request → Session σ
  | .setContent content => s.setContent content
  | .apply c => (s.apply c).2
  | .save name => (s.save name).2

/-- The session behind a list of requests, of which any may fail. -/
def run (s : Session σ) (requests : List Request) : Session σ := requests.foldl perform s

/-- The text that a request writes, if it is a save whose write succeeds. -/
def written? (s : Session σ) : Request → Option Text
  | .save name =>
    match snippetFileName name with
    | .error _ => none
    | .ok file =>
      if (Storage.write file s.content s.store).1.isOk then some s.content else none
  | .setContent _ | .apply _ => none

/-- The text that is written last in a run, if one is. -/
def lastWritten? (s : Session σ) : List Request → Option Text
  | [] => none
  | request :: requests => ((s.perform request).lastWritten? requests).or (s.written? request)

/-- Whether a text, if there is one, is in the store under the name of the session. -/
def Holds (s : Session σ) (text? : Option Text) : Prop :=
  ∀ text ∈ text?, ∃ name, s.name = some name ∧ s.texts name = some text

/-- Where no text is asked for, every session holds it. -/
theorem holds_none (s : Session σ) : s.Holds none := by
  intro text htext
  cases htext

/-- Whether a session holds a text is told by its name and the texts. -/
theorem holds_of_eq {s s' : Session σ} {text? : Option Text} (hname : s'.name = s.name)
    (htexts : s'.texts = s.texts) (h : s.Holds text?) : s'.Holds text? := by
  intro text htext
  rw [hname, htexts]
  exact h text htext

omit [MapStore σ] in
/-- A config is applied to the text alone. -/
theorem exists_apply_eq (s : Session σ) (c : Config) :
    ∃ content, (s.apply c).2 = s.setContent content := by
  unfold apply
  split
  · exact ⟨s.content, rfl⟩
  · split
    · exact ⟨s.content, rfl⟩
    · next content _ => exact ⟨content, rfl⟩

/-- One request leaves the text that was written last where it is, or writes the session's own. -/
theorem Holds.perform {s : Session σ} {last : Option Text} (h : s.Holds last) (request : Request) :
    (s.perform request).Holds ((s.written? request).or last) := by
  cases request with
  | setContent content => exact holds_of_eq rfl rfl h
  | apply c =>
    obtain ⟨content, hcontent⟩ := s.exists_apply_eq c
    rw [Session.perform, hcontent]
    exact holds_of_eq rfl rfl h
  | save name =>
    cases hfile : snippetFileName name with
    | error e => simpa [Session.perform, written?, hfile, save_of_refused s hfile] using h
    | ok file =>
      cases hwrite : (Storage.write file s.content s.store).1 with
      | error e =>
        have hunsaved := unsaved_of_write_error hfile hwrite
        simpa [Session.perform, written?, hfile, hwrite]
          using holds_of_eq hunsaved.name hunsaved.texts h
      | ok _ =>
        -- Whether the deletion succeeds makes no difference to the text that was just written.
        intro text htext
        obtain rfl : s.content = text := by simpa [written?, hfile, hwrite] using htext
        exact ⟨file, name_save_of_write hfile hwrite, text_save_of_write hfile hwrite⟩

/-- A run leaves the text that was written last where it is, under the name of the session. -/
theorem Holds.run {s : Session σ} {last : Option Text} (h : s.Holds last)
    (requests : List Request) : (s.run requests).Holds ((s.lastWritten? requests).or last) := by
  induction requests generalizing s last with
  | nil => exact h
  | cons request requests ih =>
    -- What the first request writes counts as written before the rest of the run.
    have := ih (h.perform request)
    rwa [← Option.or_assoc] at this

/-- Saving loses no text, in any state that a session comes to and whichever changes of the store
fail. A save either succeeds, and has put the text under the name that it tells and deleted what was
under the name before; or it fails and has changed nothing, or nothing but that the text is under
its new name, because only the deletion failed. So from the first write that succeeds, the text that
was written last is in the store, under the name that the session has. -/
theorem save_keeps_texts (s : Session σ) (requests : List Request) :
    (∀ name, match (s.run requests).save name with
      | (.ok file, s') => snippetFileName name = .ok file ∧ (s.run requests).Saved file s'
      | (.error e, s') => (s.run requests).Unsaved s' ∨
          ∃ file, snippetFileName name = .ok file ∧ (s.run requests).Undeleted file e s') ∧
    (s.run requests).Holds (s.lastWritten? requests) := by
  refine ⟨fun name => ?_, ?_⟩
  · rcases h : (s.run requests).save name with ⟨e | file, s'⟩
    · exact of_save_eq_error h
    · exact saved_of_save_eq_ok h
  · simpa using s.holds_none.run requests

/-- A name that is too long for a file: every character takes four bytes. -/
def sampleName : Text := List.replicate 64 '😀'

/-- A session for a snippet under such a name, in a directory that is missing. -/
def sampleSession : Session Directory :=
  { store := {}, name := some sampleName, content := [], options := {} }

/-- Of the three saves the first fails to write, and the second to delete under the name before. -/
def sampleRequests : List Request :=
  [.setContent "a", .save "b/c", .save "b", .setContent "d", .save "c", .setContent "e"]

/-- A run over the sample whose saves end in each of the three ways keeps the text that was written
last. -/
theorem save_keeps_texts_sample :
    openStored {} sampleName {} = .ok sampleSession ∧
    ((sampleSession.run (sampleRequests.take 1)).save "b/c").1 =
      .error (.invalidName "b/c.css") ∧
    ((sampleSession.run (sampleRequests.take 2)).save "b").1 = .error .io ∧
    (sampleSession.run (sampleRequests.take 3)).name = some "b.css" ∧
    ∃ name, (sampleSession.run sampleRequests).name = some name ∧
      (sampleSession.run sampleRequests).texts name = some "d" :=
  ⟨rfl, rfl, rfl, rfl, (save_keeps_texts sampleSession sampleRequests).2 "d" rfl⟩

end Session

end StyleSnippet
