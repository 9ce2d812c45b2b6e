import Mathlib.Data.List.Induction
import StyleSnippet.Proofs.Session.Saving

/-!
# What is left under earlier names

A snippet that is saved under another name is deleted under the one before. If this deletion fails,
the text is left behind: the session has the new name already, so a later save deletes there, and
not under the name from before that. The text goes when the session comes back to its name and
leaves it again.

Over a run this tells what is found under each name that the session has had and left: nothing, but
for what it left behind there.
-/

set_option autoImplicit false

namespace StyleSnippet

namespace Session

variable {σ : Type} [MapStore σ] {s : Session σ} {requests : List Request} {request : Request}
  {m text : Text}

/-! ## Single requests -/

/-- What a request changes: nothing of a name and of the texts, or what a save does whose write
succeeds. -/
theorem perform_cases (s : Session σ) (request : Request) :
    (s.perform request).name = s.name ∧ (s.perform request).texts = s.texts ∨
    ∃ new file, request = .save new ∧
      (s.Saved file (s.perform request) ∨ ∃ e, s.Undeleted file e (s.perform request)) := by
  cases request with
  | setContent content => exact .inl ⟨rfl, rfl⟩
  | apply c =>
    obtain ⟨content, hcontent⟩ := s.exists_apply_eq c
    rw [perform, hcontent]
    exact .inl ⟨rfl, rfl⟩
  | save new =>
    rcases hsave : s.save new with ⟨e | file, s'⟩ <;> simp only [perform, hsave]
    · rcases of_save_eq_error hsave with hunsaved | ⟨file, -, hundeleted⟩
      · exact .inl ⟨hunsaved.name, hunsaved.texts⟩
      · exact .inr ⟨new, file, rfl, .inr ⟨e, hundeleted⟩⟩
    · exact .inr ⟨new, file, rfl, .inl (saved_of_save_eq_ok hsave).2⟩

omit [MapStore σ] in
/-- A session with one name does not have another one. -/
theorem ne_of_name {s : Session σ} {file : Text} (hname : s.name = some file)
    (h : s.name ≠ some m) : m ≠ file := by
  rintro rfl
  exact h hname

/-- A request touches the texts under two names only: the one that the session has before, and the
one that it has behind. -/
theorem texts_perform_of_ne (h : s.name ≠ some m) (h' : (s.perform request).name ≠ some m) :
    (s.perform request).texts m = s.texts m := by
  rcases s.perform_cases request with ⟨-, htexts⟩ | ⟨new, file, -, hsaved | ⟨e, hundeleted⟩⟩
  · rw [htexts]
  · exact hsaved.others m (ne_of_name hsaved.name h') h
  · exact hundeleted.others m (ne_of_name hundeleted.name h')

/-- A request at which the session leaves its name leaves a text behind there only if it is a save
whose deletion fails. -/
theorem texts_perform_of_left (h : s.name = some m) (h' : (s.perform request).name ≠ some m) :
    (s.perform request).texts m = some text ↔
      s.texts m = some text ∧
        ∃ new file e, request = .save new ∧ s.Undeleted file e (s.perform request) := by
  have hkept : ∀ {file e}, s.Undeleted file e (s.perform request) →
      (s.perform request).texts m = s.texts m := fun hundeleted =>
    hundeleted.others m (ne_of_name hundeleted.name h')
  rcases s.perform_cases request with ⟨hname, -⟩ | ⟨new, file, rfl, hsaved | ⟨e, hundeleted⟩⟩
  · exact absurd (hname.trans h) h'
  · have hnone := hsaved.previous m h (ne_of_name hsaved.name h')
    constructor
    · intro htext
      rw [hnone] at htext
      cases htext
    · rintro ⟨htext, -, file', e, -, hundeleted⟩
      rw [hkept hundeleted, htext]
  · rw [hkept hundeleted]
    exact ⟨fun htext => ⟨htext, new, file, e, rfl, hundeleted⟩, And.left⟩

/-! ## Runs -/

/-- The session has a name at some point of a run. -/
def HasHad (s : Session σ) (requests : List Request) (m : Text) : Prop :=
  ∃ before, before <+: requests ∧ (s.run before).name = some m

/-- A text that a run has left behind under a name: the deletion there failed when the session left
the name, and the session has not come back to it. -/
inductive LeftBehind (s : Session σ) (m text : Text) : List Request → Prop
  | left {requests : List Request} {new file : Text} {e : StoreError} :
    (s.run requests).name = some m → (s.run requests).texts m = some text →
    (s.run requests).Undeleted file e (s.run (requests ++ [.save new])) →
    LeftBehind s m text (requests ++ [.save new])
  | stays {requests : List Request} {request : Request} :
    LeftBehind s m text requests → (s.run (requests ++ [request])).name ≠ some m →
    LeftBehind s m text (requests ++ [request])

/-- A run with one more request is the run, and behind it the request. -/
theorem run_concat (s : Session σ) (requests : List Request) (request : Request) :
    s.run (requests ++ [request]) = (s.run requests).perform request := by
  rw [run, List.foldl_append, List.foldl_cons, List.foldl_nil, run]

/-- A name that a session has had behind one more request is one that it has had before, or the one
that it has now. -/
theorem hasHad_concat_iff : s.HasHad (requests ++ [request]) m ↔
    s.HasHad requests m ∨ (s.run (requests ++ [request])).name = some m := by
  simp only [HasHad, List.prefix_concat_iff]
  constructor
  · rintro ⟨before, rfl | hbefore, hname⟩
    · exact .inr hname
    · exact .inl ⟨before, hbefore, hname⟩
  · rintro (⟨before, hbefore, hname⟩ | hname)
    · exact ⟨before, .inr hbefore, hname⟩
    · exact ⟨_, .inl rfl, hname⟩

/-- Behind one more request, a text is left behind if it was before, or if the session leaves its
name there. -/
theorem leftBehind_concat_iff (h' : (s.run (requests ++ [request])).name ≠ some m) :
    s.LeftBehind m text (requests ++ [request]) ↔
      ((s.run requests).name = some m ∧ (s.run requests).texts m = some text ∧
        ∃ new file e, request = .save new ∧
          (s.run requests).Undeleted file e (s.run (requests ++ [request]))) ∨
      s.LeftBehind m text requests := by
  constructor
  · intro h
    generalize hall : requests ++ [request] = all at h
    cases h with
    | left hname htext hundeleted =>
      obtain ⟨rfl, hrequest⟩ := List.append_inj' hall rfl
      obtain rfl : request = _ := List.singleton_inj.mp hrequest
      exact .inl ⟨hname, htext, _, _, _, rfl, hundeleted⟩
    | stays hleft _ =>
      obtain ⟨rfl, -⟩ := List.append_inj' hall rfl
      exact .inr hleft
  · rintro (⟨hname, htext, new, file, e, rfl, hundeleted⟩ | hleft)
    · exact .left hname htext hundeleted
    · exact .stays hleft h'

/-- A session does not have the name that it has left a text behind under. -/
theorem LeftBehind.name_ne (h : s.LeftBehind m text requests) :
    (s.run requests).name ≠ some m := by
  cases h with
  | left hname htext hundeleted =>
    obtain ⟨old, hold, hne, -⟩ := hundeleted.failed
    obtain rfl : m = old := Option.some.inj (hname.symm.trans hold)
    rw [hundeleted.name]
    exact fun heq => hne (Option.some.inj heq).symm
  | stays _ hne => exact hne

/-- What is found under a name that the session has had, and no longer has, is what it left behind
there. -/
theorem texts_run_iff_leftBehind (hhad : s.HasHad requests m)
    (hne : (s.run requests).name ≠ some m) :
    (s.run requests).texts m = some text ↔ s.LeftBehind m text requests := by
  induction requests using List.reverseRecOn with
  | nil =>
    obtain ⟨before, hbefore, hname⟩ := hhad
    rw [List.prefix_nil.mp hbefore] at hname
    exact absurd hname hne
  | append_singleton requests request ih =>
    rw [leftBehind_concat_iff hne]
    by_cases hname : (s.run requests).name = some m
    · -- The session leaves the name here, so nothing was left behind under it before.
      have hbefore : ¬ s.LeftBehind m text requests := fun h => h.name_ne hname
      rw [or_iff_left hbefore, and_iff_right hname]
      rw [run_concat] at hne ⊢
      exact texts_perform_of_left hname hne
    · have hearlier : s.HasHad requests m := (hasHad_concat_iff.mp hhad).resolve_right hne
      rw [or_iff_right fun h => hname h.1, ← ih hearlier hname]
      rw [run_concat] at hne ⊢
      rw [texts_perform_of_ne hname hne]

/-- A run leaves nothing behind without a deletion that fails. -/
theorem LeftBehind.exists_undeleted (h : s.LeftBehind m text requests) :
    ∃ before new file e, before ++ [.save new] <+: requests ∧
      (s.run before).Undeleted file e (s.run (before ++ [.save new])) := by
  induction h with
  | left hname htext hundeleted => exact ⟨_, _, _, _, List.prefix_refl _, hundeleted⟩
  | stays _ _ ih =>
    obtain ⟨before, new, file, e, hbefore, hundeleted⟩ := ih
    exact ⟨before, new, file, e, hbefore.trans (List.prefix_append _ _), hundeleted⟩

section Save

variable {name file : Text} (hsave : ((s.run requests).save name).1 = .ok file)
  (hhad : s.HasHad requests m) (hne : m ≠ file)

include hsave hhad hne

/-- Behind a save, what is stored under a name that the session has had and has no more is what was
left behind there. -/
theorem texts_save_iff_leftBehind :
    ((s.run requests).save name).2.texts m = some text ↔ s.LeftBehind m text requests := by
  have hrun : s.run (requests ++ [.save name]) = ((s.run requests).save name).2 := run_concat _ _ _
  have hsaved : (s.run requests).Saved file (s.run (requests ++ [.save name])) := by
    rw [hrun]
    exact (saved_of_save_eq_ok (Prod.ext hsave rfl)).2
  have hname : (s.run (requests ++ [.save name])).name ≠ some m := by
    rw [hsaved.name]
    exact fun h => hne (Option.some.inj h).symm
  rw [← hrun, texts_run_iff_leftBehind (hasHad_concat_iff.mpr (.inl hhad)) hname,
    leftBehind_concat_iff hname]
  refine or_iff_right ?_
  -- If the session leaves the name with this save, then it does delete there.
  rintro ⟨hbefore, htext, -, file', e, -, hundeleted⟩
  have hkept := hundeleted.others m (ne_of_name hundeleted.name hname)
  rw [hsaved.previous m hbefore hne, htext] at hkept
  cases hkept

/-- Behind a save, nothing is stored under a name that the session has had and has no more, if no
deletion failed. -/
theorem texts_save_eq_none (hdeleted : ∀ before new file e, before ++ [.save new] <+: requests →
      ¬ (s.run before).Undeleted file e (s.run (before ++ [.save new]))) :
    ((s.run requests).save name).2.texts m = none := by
  refine Option.eq_none_iff_forall_ne_some.mpr fun text htext => ?_
  have hleft := (texts_save_iff_leftBehind hsave hhad hne).mp htext
  obtain ⟨before, new, file', e, hbefore, hundeleted⟩ := hleft.exists_undeleted
  exact hdeleted before new file' e hbefore hundeleted

end Save

/-- When a save succeeds, what is found under another name that the session has had in the run is
what was left behind there. So nothing is, unless a save before could not delete. -/
theorem stale_iff_leftBehind (s : Session σ) (requests : List Request) {name file m : Text}
    (hsave : ((s.run requests).save name).1 = .ok file) (hhad : s.HasHad requests m)
    (hne : m ≠ file) :
    (∀ text, ((s.run requests).save name).2.texts m = some text ↔ s.LeftBehind m text requests) ∧
    ((∀ before new file e, before ++ [.save new] <+: requests →
        ¬ (s.run before).Undeleted file e (s.run (before ++ [.save new]))) →
      ((s.run requests).save name).2.texts m = none) :=
  ⟨fun _ => texts_save_iff_leftBehind hsave hhad hne, texts_save_eq_none hsave hhad hne⟩

/-- A new snippet, in a directory in which the third change fails. -/
def faultySession : Session (Faulty Directory) :=
  create {} { store := {}, faults := [false, false, true] }

/-- The deletion under the first name fails, and with it the second save. -/
def renamingRequests : List Request :=
  [.setContent "old", .save "a", .setContent "new", .save "b"]

/-- The sample run has had its first name. -/
theorem hasHad_renamingRequests : faultySession.HasHad renamingRequests "a.css" :=
  ⟨renamingRequests.take 2, List.take_prefix _ _, rfl⟩

/-- The save that failed is made again. It succeeds, and the first text is left behind. -/
theorem stale_iff_leftBehind_sample :
    ((faultySession.run renamingRequests).save "b").1 = .ok "b.css" ∧
    faultySession.HasHad renamingRequests "a.css" ∧ ("a.css" : Text) ≠ "b.css" ∧
    faultySession.LeftBehind "a.css" "old" renamingRequests := by
  have hsave : ((faultySession.run renamingRequests).save "b").1 = .ok "b.css" := rfl
  have hne : ("a.css" : Text) ≠ "b.css" := by decide
  exact ⟨hsave, hasHad_renamingRequests, hne,
    ((stale_iff_leftBehind _ _ hsave hasHad_renamingRequests hne).1 "old").mp rfl⟩

/-- A save may succeed while a text is still there under a name from before. -/
theorem exists_stale :
    ¬ ∀ (store : Faulty Directory) (requests : List Request) (name file m : Text),
      (((create {} store).run requests).save name).1 = .ok file →
      (create {} store).HasHad requests m → m ≠ file →
      (((create {} store).run requests).save name).2.texts m = none := by
  intro h
  have hnone := h faultySession.store renamingRequests "b" "b.css" "a.css" rfl
    hasHad_renamingRequests (by decide)
  cases (show some ("old" : Text) = none from hnone)

end Session

end StyleSnippet
