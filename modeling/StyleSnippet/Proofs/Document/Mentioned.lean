import StyleSnippet.Document.Mention
import StyleSnippet.Proofs.Text.Search

/-!
# Mentions that are found

A text mentions an id where the id stands behind a point or a hash and no identifier character
follows. Occurrences are looked for from the left, and the search goes on behind each one that it
finds. So every mention that is found is one, and a mention is missed only where it starts inside an
occurrence in front of it. That takes an id that begins again behind a point or a hash of its own.
-/

set_option autoImplicit false

namespace StyleSnippet

variable {id before after rest t : Text} {previous : Option Char}

/-! ## Mentions -/

/-- Whether an id that stands between two texts is mentioned there. -/
structure MentionAt (before after : Text) : Prop where
  marked : before.getLast? = some '.' ∨ before.getLast? = some '#'
  ends : ∀ c ∈ after.head?, c.isAlphanum = false ∧ c ≠ '_' ∧ c ≠ '-'

/-- Whether a text mentions an id at some position. -/
def Mentions (id t : Text) : Prop :=
  ∃ before after, t = before ++ (id ++ after) ∧ MentionAt before after

/-- The characters around an id tell whether it is mentioned. -/
theorem mentionAt_iff : MentionAt before after ↔
    before.getLast?.any marksId = true ∧ after.head?.any isIdentChar = false := by
  have hmarked : before.getLast?.any marksId = true ↔
      before.getLast? = some '.' ∨ before.getLast? = some '#' := by
    cases before.getLast? <;> simp [marksId]
  have hends : after.head?.any isIdentChar = false ↔
      ∀ c ∈ after.head?, c.isAlphanum = false ∧ c ≠ '_' ∧ c ≠ '-' := by
    cases after.head? <;> simp [isIdentChar, and_assoc]
  rw [hmarked, hends]
  exact ⟨fun h => ⟨h.marked, h.ends⟩, fun h => ⟨h.1, h.2⟩⟩

/-! ## The search -/

/-- The search for an id comes to the end of the first text, where the second one follows: it goes
on by a character where the id does not begin, and by the whole id where it does. -/
inductive Searched (id : Text) : Text → Text → Prop
  | start (rest : Text) : Searched id [] rest
  | pass {c : Char} {before rest : Text} (hno : ¬ id <+: c :: (before ++ rest))
      (more : Searched id before rest) : Searched id (c :: before) rest
  | jump {before rest : Text} (more : Searched id before rest) : Searched id (id ++ before) rest

/-- Where the id begins, the search jumps over it. -/
theorem Searched.cases_of_prefix (h : Searched id before rest) (hid : id <+: before ++ rest) :
    before = [] ∨ ∃ before', before = id ++ before' ∧ Searched id before' rest := by
  cases h with
  | start => exact Or.inl rfl
  | pass hno => exact absurd hid hno
  | jump more => exact Or.inr ⟨_, rfl, more⟩

/-- Where the id does not begin, the search passes one character. -/
theorem Searched.cases_of_not_prefix (h : Searched id before rest)
    (hid : ¬ id <+: before ++ rest) :
    before = [] ∨ ∃ c before', before = c :: before' ∧ Searched id before' rest := by
  cases h with
  | start => exact Or.inl rfl
  | pass _ more => exact Or.inr ⟨_, _, rfl, more⟩
  | jump more =>
    rw [List.append_assoc] at hid
    exact absurd (List.prefix_append _ _) hid

/-- The character in front of a place behind a character. -/
theorem getLast?_cons_or (c : Char) (before : Text) (previous : Option Char) :
    (c :: before).getLast?.or previous = before.getLast?.or (some c) := by
  rw [List.getLast?_cons]
  cases before.getLast? <;> rfl

/-- The character in front of a place behind an id. -/
theorem getLast?_append_or (hid : id ≠ []) (before : Text) (previous : Option Char) :
    (id ++ before).getLast?.or previous = before.getLast?.or id.getLast? := by
  rw [List.getLast?_append, Option.or_assoc, List.getLast?_eq_some_getLast hid]
  rfl

/-- The places that are looked at are those that the search comes to and where the id begins. -/
theorem mentionsFrom_iff (hid : id ≠ []) : mentionsFrom id hid previous t = true ↔
    ∃ before after, t = before ++ (id ++ after) ∧ Searched id before (id ++ after) ∧
      (before.getLast?.or previous).any marksId = true ∧
        after.head?.any isIdentChar = false := by
  fun_induction mentionsFrom id hid previous t with
  | case1 previous => simp [hid]
  | case2 previous c r rest hafter ih =>
    have ht := Text.eq_append_of_after? hafter
    rw [ht, Bool.or_eq_true, Bool.and_eq_true, Bool.not_eq_true', ih]
    constructor
    · rintro (⟨hmark, hend⟩ | ⟨before, after, rfl, hsearch, hmark, hend⟩)
      · exact ⟨[], rest, rfl, .start _, hmark, hend⟩
      · refine ⟨id ++ before, after, by rw [List.append_assoc], .jump hsearch, ?_, hend⟩
        rwa [getLast?_append_or hid]
    · rintro ⟨before, after, heq, hsearch, hmark, hend⟩
      have hpre : id <+: before ++ (id ++ after) := heq ▸ List.prefix_append id rest
      obtain rfl | ⟨before', rfl, hmore⟩ := hsearch.cases_of_prefix hpre
      · rw [List.nil_append] at heq
        rw [List.append_cancel_left heq]
        exact Or.inl ⟨hmark, hend⟩
      · rw [List.append_assoc] at heq
        rw [getLast?_append_or hid] at hmark
        exact Or.inr ⟨before', after, List.append_cancel_left heq, hmore, hmark, hend⟩
  | case3 previous c r hafter ih =>
    have hno := Text.after?_eq_none_iff.mp hafter
    rw [ih]
    constructor
    · rintro ⟨before, after, rfl, hsearch, hmark, hend⟩
      refine ⟨c :: before, after, rfl, .pass hno hsearch, ?_, hend⟩
      rwa [getLast?_cons_or]
    · rintro ⟨before, after, heq, hsearch, hmark, hend⟩
      obtain rfl | ⟨d, before', rfl, hmore⟩ := hsearch.cases_of_not_prefix (heq ▸ hno)
      · exact absurd ⟨after, heq.symm⟩ hno
      · rw [List.cons_append, List.cons.injEq] at heq
        obtain ⟨rfl, rfl⟩ := heq
        rw [getLast?_cons_or] at hmark
        exact ⟨before', after, rfl, hmore, hmark, hend⟩

/-- An id is found just if it is mentioned at a place where the search comes to. -/
theorem mentionsId_iff_searched (hid : id ≠ []) : mentionsId id t = true ↔
    ∃ before after, t = before ++ (id ++ after) ∧ Searched id before (id ++ after) ∧
      MentionAt before after := by
  rw [mentionsId, dif_neg hid, mentionsFrom_iff]
  simp only [Option.or_none, mentionAt_iff]

/-! ## Mentions that are missed -/

/-- Whether an id begins again behind a point or a hash of its own. -/
def Overlaps (id : Text) : Prop :=
  ∃ front mark back, id = front ++ mark :: back ∧ (mark = '.' ∨ mark = '#') ∧ back ≠ [] ∧
    back <+: id

/-- The search comes to an occurrence, or has jumped over its start. -/
theorem searched_or_jumped (hid : id ≠ []) (before after : Text) :
    Searched id before (id ++ after) ∨
      ∃ front back, id = front ++ back ∧ front ≠ [] ∧ back ≠ [] ∧ front <:+ before ∧
        back <+: id := by
  -- the search starts anew behind a character or an occurrence, with less text before it
  induction hn : before.length using Nat.strong_induction_on generalizing before with
  | _ n ih =>
    subst hn
    by_cases hpre : id <+: before ++ (id ++ after)
    · obtain ⟨rest, hrest⟩ := hpre
      obtain ⟨back, hback, hsplit⟩ | ⟨before', hbefore, -⟩ :=
        List.append_eq_append_iff.mp hrest.symm
      · by_cases hfront : before = []
        · exact Or.inl (hfront ▸ .start _)
        · by_cases hnil : back = []
          · rw [hnil, List.append_nil] at hback
            have hjump : Searched id (id ++ []) (id ++ after) := .jump (.start _)
            rw [List.append_nil] at hjump
            exact Or.inl (hback ▸ hjump)
          · refine Or.inr ⟨before, back, hback, hfront, hnil, List.suffix_rfl, ?_⟩
            have hlen := congrArg List.length hback
            rw [List.length_append] at hlen
            exact List.prefix_of_prefix_length_le ⟨rest, hsplit.symm⟩ (List.prefix_append id after)
              (by omega)
      · have hpos := List.length_pos_iff.mpr hid
        have hlen : before'.length < before.length := by
          rw [hbefore, List.length_append]
          omega
        obtain hsearch | ⟨front, back, hsplit, hfront, hback, hsuffix, hagain⟩ :=
          ih before'.length hlen before' rfl
        · exact Or.inl (hbefore ▸ .jump hsearch)
        · refine Or.inr ⟨front, back, hsplit, hfront, hback, hsuffix.trans ?_, hagain⟩
          exact hbefore ▸ List.suffix_append id before'
    · cases before with
      | nil => exact absurd (List.prefix_append id after) hpre
      | cons c before =>
        obtain hsearch | ⟨front, back, hsplit, hfront, hback, hsuffix, hagain⟩ :=
          ih before.length (by simp) before rfl
        · exact Or.inl (.pass hpre hsearch)
        · exact Or.inr ⟨front, back, hsplit, hfront, hback,
            hsuffix.trans (List.suffix_cons c before), hagain⟩

/-- An id that does not begin again behind a mark of its own is found wherever it is mentioned. -/
theorem exists_searched_of_mentions (hid : id ≠ []) (hoverlaps : ¬ Overlaps id)
    (h : Mentions id t) : ∃ before after, t = before ++ (id ++ after) ∧
      Searched id before (id ++ after) ∧ MentionAt before after := by
  obtain ⟨before, after, rfl, hmention⟩ := h
  refine ⟨before, after, rfl, ?_, hmention⟩
  obtain hsearch | ⟨front, back, hsplit, hfront, hback, ⟨s, hs⟩, hagain⟩ :=
    searched_or_jumped hid before after
  · exact hsearch
  · exfalso
    apply hoverlaps
    have hlast : before.getLast? = some (front.getLast hfront) := by
      rw [← hs, List.getLast?_append, List.getLast?_eq_some_getLast hfront, Option.some_or]
    refine ⟨front.dropLast, front.getLast hfront, back, ?_, ?_, hback, hagain⟩
    · rw [hsplit, List.append_cons, List.dropLast_append_getLast]
    · simpa [hlast] using hmention.marked

/-- An id that begins again behind a mark of its own is missed where it stands behind its own
front. -/
theorem mentionsId_overlapping {front back : Text} {mark : Char} (hid : id = front ++ mark :: back)
    (hback : back ≠ []) (hagain : back <+: id) :
    mentionsId id (front ++ mark :: id) = false := by
  have hne : id ≠ [] := by simp [hid]
  rw [← Bool.not_eq_true, mentionsId_iff_searched hne]
  rintro ⟨before, after, heq, hsearch, hmention⟩
  have hpre : id <+: front ++ mark :: id := by
    conv_lhs => rw [hid]
    exact (List.prefix_append_right_inj front).mpr ((List.prefix_cons_inj mark).mpr hagain)
  obtain rfl | ⟨before', rfl, -⟩ := hsearch.cases_of_prefix (heq ▸ hpre)
  · simpa using hmention.marked
  · -- two occurrences one behind the other do not fit into the text
    have hlen := congrArg List.length heq
    have hlong := congrArg List.length hid
    have hpos := List.length_pos_iff.mpr hback
    simp only [List.length_append, List.length_cons] at hlen hlong
    omega

/-- An id behind a mark at the end of a text is mentioned. -/
theorem mentions_overlapping (id front : Text) {mark : Char} (hmark : mark = '.' ∨ mark = '#') :
    Mentions id (front ++ mark :: id) := by
  refine ⟨front ++ [mark], [], by simp, ?_, by simp⟩
  simpa using hmark

/-- What is found is a mention at which the search from the left arrives. All mentions of an id are
found, whatever the text, exactly if the id does not begin again behind a point or a hash of its
own, and so if it has none. -/
theorem mentionsId_iff_mentions (hid : id ≠ []) :
    (∀ t, mentionsId id t = true ↔ ∃ before after, t = before ++ (id ++ after) ∧
      Searched id before (id ++ after) ∧ MentionAt before after) ∧
    ((∀ t, mentionsId id t = true ↔ Mentions id t) ↔ ¬ Overlaps id) ∧
    ('.' ∉ id → '#' ∉ id → ∀ t, mentionsId id t = true ↔ Mentions id t) := by
  have hall (hoverlaps : ¬ Overlaps id) (t : Text) : mentionsId id t = true ↔ Mentions id t := by
    rw [mentionsId_iff_searched hid]
    refine ⟨?_, exists_searched_of_mentions hid hoverlaps⟩
    rintro ⟨before, after, heq, -, hmention⟩
    exact ⟨before, after, heq, hmention⟩
  refine ⟨fun t => mentionsId_iff_searched hid, ⟨?_, hall⟩, ?_⟩
  · rintro h ⟨front, mark, back, hsplit, hmark, hback, hagain⟩
    have hfound := (h _).mpr (mentions_overlapping id front hmark)
    rw [mentionsId_overlapping hsplit hback hagain] at hfound
    exact Bool.false_ne_true hfound
  · intro hpoint hhash
    apply hall
    rintro ⟨front, mark, back, rfl, rfl | rfl, -, -⟩
    · simp at hpoint
    · simp at hhash

/-- An id with a point in it, whose two sides differ. -/
theorem mentionsId_iff_mentions_pointed : "a.b".toList ≠ [] ∧ ¬ Overlaps "a.b" ∧
    ∀ t, mentionsId "a.b" t = true ↔ Mentions "a.b" t := by
  have hid : "a.b".toList ≠ [] := by decide
  have hoverlaps : ¬ Overlaps "a.b" := by
    rintro ⟨front, mark, back, hsplit, hmark, hback, hagain⟩
    have hlen := congrArg List.length hsplit
    have hpos := List.length_pos_iff.mpr hback
    rcases front with _ | ⟨c, _ | ⟨d, front⟩⟩
    · rcases hmark with rfl | rfl <;> simp at hsplit
    · obtain ⟨-, -, rfl⟩ : c = 'a' ∧ mark = '.' ∧ back = ['b'] := by simpa using hsplit.symm
      exact absurd hagain (by decide)
    · simp at hlen
      omega
  exact ⟨hid, hoverlaps, (mentionsId_iff_mentions hid).2.1.mpr hoverlaps⟩

/-- A mention that starts inside an occurrence in front of it is missed. -/
theorem exists_missed_mention : ∃ id t, id ≠ [] ∧ Mentions id t ∧ mentionsId id t = false := by
  have hid : "a.a".toList = "a".toList ++ '.' :: "a".toList := rfl
  refine ⟨"a.a", "a.a.a", by decide, mentions_overlapping _ "a" (Or.inl rfl), ?_⟩
  exact mentionsId_overlapping hid (by decide) (by decide)

end StyleSnippet
