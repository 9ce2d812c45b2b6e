import StyleSnippet.Proofs.Css.Body

/-!
# The nesting of blocks

The records tell which blocks are open, by their depths alone: going back from the latest record,
the innermost open block is the first to be as deep as blocks are open, and the blocks that opened
behind its brace are all deeper. `Standing` is this relation between the records and those of
them whose blocks are open, and a scan keeps it with every character.

Hence the block that a new block opens in is the latest one of one depth less, and it is open from
its brace to the brace of the new block.
-/

set_option autoImplicit false

namespace StyleSnippet.Css

open Text

variable {scope t css : Text} {b e x : BlockRecord} {records opened : List BlockRecord}

/-! ## The open blocks among all blocks -/

/-- Records, latest first, and those of them whose blocks are open, innermost first. What opened
behind the brace of an open block is deeper than the block. -/
inductive Standing : List BlockRecord → List BlockRecord → Prop
  | nil (records : List BlockRecord) : Standing records []
  | cons {later records opened : List BlockRecord} {e : BlockRecord}
      (depth : e.depth = opened.length + 1) (deeper : ∀ x ∈ later, e.depth < x.depth)
      (rest : Standing records opened) : Standing (later ++ e :: records) (e :: opened)

namespace Standing

/-- A block that opens is the innermost one. -/
theorem push (h : Standing records opened) (hb : b.depth = opened.length + 1) :
    Standing (b :: records) (b :: opened) :=
  @Standing.cons [] records opened b hb (by simp) h

/-- When the innermost block is closed, it joins those that opened behind the brace of the block
around it. -/
theorem tail (h : Standing records opened) : Standing records opened.tail := by
  cases h with
  | nil => exact .nil _
  | @cons later _ _ _ hdepth hdeeper hrest =>
    cases hrest with
    | nil => exact .nil _
    | @cons later' records opened e' hdepth' hdeeper' hrest =>
      rw [List.length_cons] at hdepth
      rw [← List.cons_append, ← List.append_assoc]
      refine .cons hdepth' ?_ hrest
      intro x hx
      rcases List.mem_append.mp hx with hx | hx
      · have := hdeeper x hx
        omega
      · rcases List.mem_cons.mp hx with rfl | hx
        · omega
        · exact hdeeper' x hx

/-- An open block is no deeper than blocks are open. -/
theorem depth_le (h : Standing records opened) (he : e ∈ opened) : e.depth ≤ opened.length := by
  induction h with
  | nil => simp at he
  | cons hdepth _ _ ih =>
    rw [List.length_cons]
    rcases List.mem_cons.mp he with rfl | he
    · exact hdepth.le
    · exact (ih he).trans (Nat.le_succ _)

/-- The latest block is no less deep than blocks are open. -/
theorem length_le (h : Standing records opened) :
    opened.length ≤ (records.head?.map (·.depth)).getD 0 := by
  cases h with
  | nil => simp
  | @cons later records opened e hdepth hdeeper =>
    cases later with
    | nil => exact hdepth.ge
    | cons x later =>
      have := hdeeper x (by simp)
      simp only [List.length_cons, List.cons_append, List.head?_cons, Option.map_some,
        Option.getD_some]
      omega

end Standing

/-! ## The open blocks of a text -/

/-- A character that opens no block closes at most the innermost one. -/
theorem Scan.frames_step (scope : Text) {s : Scan} {c : Char}
    (h : ¬ (isBoundary s.stack s.mode c = true ∧ c = '{')) :
    (s.step scope c).stack.frames = s.stack.frames ∨
      (s.step scope c).stack.frames = s.stack.frames.tail := by
  rw [stack_step]
  split
  · next hb =>
    rw [stackAfter, if_neg fun hc => h ⟨hb, hc⟩]
    split
    · exact Or.inr rfl
    · exact Or.inl rfl
  · exact Or.inl rfl

/-- The block has stayed open since its brace, which is in the text. -/
def OpenSince (scope t : Text) (e : BlockRecord) : Prop :=
  ∃ before inside, t = before ++ inside ∧
    (∃ head prelude, before = head ++ prelude ++ ['{'] ∧ Opens scope head prelude e) ∧
      ∀ p, p <+: inside → e.depth ≤ (Scan.read scope (before ++ p)).stack.depth

namespace OpenSince

/-- A block that is still open behind one more character has been open all along. -/
theorem concat (h : OpenSince scope t e) {c : Char}
    (hdepth : e.depth ≤ (Scan.read scope (t ++ [c])).stack.depth) :
    OpenSince scope (t ++ [c]) e := by
  obtain ⟨before, inside, rfl, hopens, hinside⟩ := h
  refine ⟨before, inside ++ [c], List.append_assoc _ _ _, hopens, ?_⟩
  intro p hp
  rcases List.prefix_concat_iff.mp hp with rfl | hp
  · rwa [← List.append_assoc]
  · exact hinside p hp

/-- The body of an open block is not the top level. -/
theorem context_ne_root (h : OpenSince scope t e) : e.context ≠ .root := by
  obtain ⟨before, inside, rfl, ⟨head, prelude, rfl, hopens⟩, hinside⟩ := h
  rw [hopens.context_eq]
  exact Context.ofPrelude_ne_root _

end OpenSince

/-- The blocks that are open behind a text, innermost first: the stack holds their contexts, the
records tell them by their depths, and each is open since its brace. -/
structure OpenBlocks (scope t : Text) (opened : List BlockRecord) : Prop where
  frames : (Scan.read scope t).stack.frames = opened.map (·.context)
  standing : Standing (Scan.read scope t).records opened
  since : ∀ e ∈ opened, OpenSince scope t e

namespace OpenBlocks

/-- The scan counts the open blocks. -/
theorem depth_eq (h : OpenBlocks scope t opened) :
    (Scan.read scope t).stack.depth = opened.length := by
  rw [ContextStack.depth, h.frames, List.length_map]

/-- Those of the open blocks that a character leaves open. -/
theorem since_concat (h : OpenBlocks scope t opened) {kept : List BlockRecord} {c : Char}
    (hkept : kept ⊆ opened) (hdepth : ∀ e ∈ kept, e.depth ≤ kept.length)
    (hlength : kept.length ≤ (Scan.read scope (t ++ [c])).stack.depth) :
    ∀ e ∈ kept, OpenSince scope (t ++ [c]) e :=
  fun e he => (h.since e (hkept he)).concat ((hdepth e he).trans hlength)

/-- A brace opens a block in the innermost open block. -/
theorem opening (h : OpenBlocks scope t opened)
    (hb : isBoundary (Scan.read scope t).stack (Scan.read scope t).mode '{' = true) :
    OpenBlocks scope (t ++ ['{']) ((Scan.read scope t).record scope :: opened) := by
  obtain ⟨u, hu, -⟩ := Scan.exists_boundary scope t
  have hopens := opens_record hu hb
  have hstack := hopens.stack_eq
  have hdepth : ((Scan.read scope t).record scope).depth = opened.length + 1 :=
    congrArg (· + 1) h.depth_eq
  rw [← hu] at hstack
  refine ⟨?_, ?_, ?_⟩
  · rw [hstack.1, h.frames, List.map_cons]
  · rw [Scan.read_concat, Scan.records_step, if_pos ⟨hb, rfl⟩]
    exact h.standing.push hdepth
  · intro e he
    rcases List.mem_cons.mp he with rfl | he
    · refine ⟨t ++ ['{'], [], by simp, ⟨u, _, by rw [← hu], hopens⟩, ?_⟩
      intro p hp
      rw [List.prefix_nil.mp hp, List.append_nil, hstack.2]
    · refine h.since_concat (List.Subset.refl _) (fun e => h.standing.depth_le) ?_ e he
      rw [hstack.2, hdepth]
      exact Nat.le_succ _

/-- One more character opens a block, closes the innermost one, or leaves the open blocks. -/
theorem concat (h : OpenBlocks scope t opened) (c : Char) :
    ∃ opened', OpenBlocks scope (t ++ [c]) opened' := by
  by_cases hopens : isBoundary (Scan.read scope t).stack (Scan.read scope t).mode c = true ∧ c = '{'
  · obtain ⟨hb, rfl⟩ := hopens
    exact ⟨_, h.opening hb⟩
  · obtain ⟨kept, hkept, hstanding, hframes⟩ : ∃ kept, kept ⊆ opened ∧
        Standing (Scan.read scope t).records kept ∧
          (Scan.read scope (t ++ [c])).stack.frames = kept.map (·.context) := by
      rw [Scan.read_concat]
      rcases Scan.frames_step scope hopens with hframes | hframes
      · exact ⟨opened, List.Subset.refl _, h.standing, hframes.trans h.frames⟩
      · exact ⟨opened.tail, List.tail_subset opened, h.standing.tail,
          by rw [hframes, h.frames, List.map_tail]⟩
    refine ⟨kept, hframes, ?_, h.since_concat hkept (fun e => hstanding.depth_le) ?_⟩
    · rwa [Scan.read_concat, Scan.records_step, if_neg hopens]
    · rw [ContextStack.depth, hframes, List.length_map]

end OpenBlocks

/-- Behind every text, the open blocks are told by the records. -/
theorem exists_openBlocks (scope t : Text) : ∃ opened, OpenBlocks scope t opened := by
  induction t using List.reverseRecOn with
  | nil => exact ⟨[], rfl, .nil _, by simp⟩
  | append_singleton t c ih =>
    obtain ⟨opened, h⟩ := ih
    exact h.concat c

/-! ## Where a block opens -/

/-- The brace of a block lies in the body of another. -/
def OpensIn (scope css : Text) (e b : BlockRecord) : Prop :=
  ∃ before body rest head prelude inside, css = before ++ body ++ rest ∧
    IsBody scope before body rest e ∧ Opens scope head prelude b ∧
      head ++ prelude = before ++ inside ∧ inside ++ ['{'] <+: body

/-- A block opens in every block that is open since its brace. -/
theorem OpenSince.opensIn {head prelude : Text} (h : OpenSince scope (head ++ prelude ++ ['{']) e)
    (hopens : Opens scope head prelude b) (hlt : e.depth < b.depth) (rest : Text) :
    OpensIn scope (head ++ prelude ++ '{' :: rest) e b := by
  obtain ⟨before, inside, htext, hopens', hinside⟩ := h
  obtain ⟨q, rest', rfl, hbody, hclosed⟩ := exists_inside scope e.depth before inside rest hinside
  -- the brace of the inner block is not the one that opens the body
  obtain ⟨inside', rfl⟩ : ∃ inside', inside = inside' ++ ['{'] := by
    rcases List.eq_nil_or_concat' inside with rfl | ⟨inside', c, rfl⟩
    · obtain ⟨head', prelude', rfl, hopens'⟩ := hopens'
      rw [List.append_nil] at htext
      have hdepth := hopens.stack_eq.2
      rw [htext, hopens'.stack_eq.2] at hdepth
      omega
    · rw [← List.append_assoc] at htext
      obtain ⟨-, hc⟩ := List.append_inj' htext rfl
      exact ⟨inside', by rw [hc]⟩
  rw [← List.append_assoc] at htext
  obtain ⟨hhead, -⟩ := List.append_inj' htext rfl
  refine ⟨before, inside' ++ ['{'] ++ q, rest', head, prelude, inside', ?_,
    ⟨hopens', hbody, hclosed⟩, hopens, hhead, List.prefix_append _ _⟩
  rw [hhead]
  simp

/-- How a block is nested, told by the blocks that opened before it. -/
structure Nested (scope css : Text) (earlier : List BlockRecord) (b : BlockRecord) : Prop where
  /-- A block is at most one deeper than the one before it. -/
  depth : 1 ≤ b.depth ∧ b.depth ≤ (earlier.getLast?.map (·.depth)).getD 0 + 1
  /-- The blocks at the top level are those of depth one. -/
  root_iff : b.parent = .root ↔ b.depth = 1
  /-- Every other block stands in the latest block of one depth less, which is still open. -/
  parent : b.depth ≠ 1 → ∃ l e l', earlier = l ++ e :: l' ∧ e.depth + 1 = b.depth ∧
    (∀ x ∈ l', x.depth + 1 ≠ b.depth) ∧ b.parent = e.context ∧ OpensIn scope css e b

/-- The records of the blocks that opened before a block tell how it is nested. -/
theorem Opens.nested {before prelude : Text} (h : Opens scope before prelude b) (rest : Text) :
    Nested scope (before ++ prelude ++ '{' :: rest) (scan scope (before ++ prelude)).blocks b := by
  obtain ⟨opened, hopened⟩ := exists_openBlocks scope (before ++ prelude)
  obtain ⟨hb, hrecord⟩ := h.record_eq
  have hdepth : b.depth = opened.length + 1 := by
    rw [hrecord, ← hopened.depth_eq]
    rfl
  have hparent : b.parent = (opened.map (·.context)).headD .root := by
    rw [hrecord, ← hopened.frames]
    rfl
  have hlast := hopened.standing.length_le
  rw [← List.getLast?_reverse, ← blocks_scan] at hlast
  have hbounds : 1 ≤ b.depth ∧ b.depth ≤
      ((scan scope (before ++ prelude)).blocks.getLast?.map (·.depth)).getD 0 + 1 := by
    omega
  cases opened with
  | nil =>
    exact ⟨hbounds, by simp [hparent, hdepth], fun hne => absurd (by simpa using hdepth) hne⟩
  | cons e es =>
    have hopen := (hopened.opening hb).since e (by simp)
    simp only [List.map_cons, List.headD_cons, List.length_cons] at hparent hdepth
    refine ⟨hbounds, ?_, fun _ => ?_⟩
    · have hroot := hopen.context_ne_root
      rw [← hparent] at hroot
      exact iff_of_false hroot (by omega)
    · -- The innermost open block is the parent, and what is recorded later lies inside of it.
      have hstanding := hopened.standing
      generalize hrecords : (Scan.read scope (before ++ prelude)).records = records at hstanding
      cases hstanding with
      | @cons later earlier _ _ hdepth' hdeeper _ =>
        refine ⟨earlier.reverse, e, later.reverse, ?_, by omega, ?_, hparent,
          hopen.opensIn h (by omega) rest⟩
        · rw [blocks_scan, hrecords]
          simp
        · intro x hx
          have := hdeeper x (List.mem_reverse.mp hx)
          omega

end StyleSnippet.Css
