import StyleSnippet.Proofs.Yaml.Lowered
import StyleSnippet.Yaml.Reader

/-!
# Reading a document behind a line feed

A document is cut into the same tokens when a line feed stands in front of it, so it says the same.
The line feed is a gap, and all that is cut behind it is cut at lowered places.
-/

set_option autoImplicit false

namespace StyleSnippet.Yaml

open Cursor

/-! ## Tags, anchors and directives -/

variable (c : Cursor)

/-- A line feed in front makes no difference to how the characters of a tag are read. -/
@[simp] theorem uriFrom?_lower (whole : Bool) (start : Text) :
    uriFrom? whole start c.lower = (uriFrom? whole start c).map (Prod.map id lower) := by
  simp only [uriFrom?, lower_rest]
  cases uri? whole (c.rest.length + 1) c.rest with
  | none => rfl
  | some p =>
    simp only [Option.bind_eq_bind, Option.bind_some, lower_moveTo, apply_ite (Option.map _)]
    rfl

/-- A line feed in front makes no difference to how the handle of a tag is read. -/
@[simp] theorem tagHandle?_lower :
    tagHandle? c.lower = (tagHandle? c).map (Prod.map id lower) := by
  simp only [tagHandle?, lower_rest]
  split
  · split <;> simp
  · rfl

/-- A line feed in front makes no difference to how the parts of a tag are read. -/
@[simp] theorem tagParts?_lower :
    tagParts? c.lower = (tagParts? c).map (Prod.map id (Prod.map id lower)) := by
  simp only [tagParts?, lower_rest]
  split
  · simp only [lower_skip, uriFrom?_lower, Option.bind_eq_bind]
    refine bind_map_of_comm _ fun p => ?_
    simp only [Prod.map, id, lower_skip, apply_ite (Option.map _)]
    rfl
  · simp only [tagHandle?_lower, Option.bind_eq_bind]
    refine bind_map_of_comm _ fun p => ?_
    simp only [Prod.map, id, uriFrom?_lower]
    split
    · exact bind_map_of_comm _ fun _ => rfl
    · refine bind_map_of_comm _ fun q => ?_
      simp only [Prod.map, id]
      split <;> rfl

/-- A line feed in front makes no difference to how a tag is read. -/
@[simp] theorem tag?_lower (inFlow : Bool) :
    tag? inFlow c.lower = (tag? inFlow c).map (Prod.map id lower) := by
  simp only [tag?, tagParts?_lower, Option.bind_eq_bind]
  refine bind_map_of_comm _ fun p => ?_
  simp only [Prod.map, id, apply_ite (Option.map _)]
  rfl

/-- A line feed in front makes no difference to how the name of an anchor is read. -/
@[simp] theorem anchorName?_lower :
    anchorName? c.lower = (anchorName? c).map (Prod.map id lower) := by
  simp only [anchorName?, lower_skip, lower_rest, apply_ite (Option.map _)]
  rfl

/-- A line feed in front makes no difference to how a version number is read. -/
@[simp] theorem versionNumber?_lower :
    versionNumber? c.lower = (versionNumber? c).map (Prod.map id lower) := by
  simp only [versionNumber?, lower_rest, lower_skip, apply_ite (Option.map _)]
  rfl

/-- A line feed in front makes no difference to how a directive is read. -/
@[simp] theorem directive?_lower :
    directive? c.lower = (directive? c).map (Prod.map id lower) := by
  simp only [directive?, lower_skip, lower_rest, Option.bind_eq_bind]
  set d := (c.skip 1).skip ((c.skip 1).rest.takeWhile isNameChar).length with hd
  split
  · rfl
  split
  · simp only [lower_skipWhile, versionNumber?_lower]
    refine bind_map_of_comm _ fun p => ?_
    simp only [Prod.map, id, lower_startsWith, lower_skip, versionNumber?_lower]
    split
    · rfl
    refine bind_map_of_comm _ fun q => ?_
    simp only [Prod.map, id, lower_finishLine?]
    exact bind_map_of_comm _ fun _ => rfl
  split
  · simp only [lower_skipWhile, tagHandle?_lower]
    refine bind_map_of_comm _ fun p => ?_
    simp only [Prod.map, id, lower_startsWithAny, lower_skipWhile, uriFrom?_lower]
    split
    · rfl
    refine bind_map_of_comm _ fun q => ?_
    simp only [Prod.map, id, lower_rest, lower_finishLine?]
    split
    · rfl
    · exact bind_map_of_comm _ fun _ => rfl
  · rfl

/-! ## Tokens -/

/-- The same start of a key, with a line feed in front of the document. -/
def KeyStart.lower (k : KeyStart) : KeyStart := { k with index := k.index + 1, line := k.line + 1 }

namespace Lexer

variable (s : Lexer)

/-- The same state, with a line feed in front of the document. -/
def lower (s : Lexer) : Lexer :=
  { s with
    cursor := s.cursor.lower
    keyStart := s.keyStart.map KeyStart.lower
    outerKeys := s.outerKeys.map (Option.map KeyStart.lower) }

/-- The place is behind the line feed. -/
@[simp] theorem lower_cursor : s.lower.cursor = s.cursor.lower := rfl

/-- Whether it is inside brackets is the same behind a line feed. -/
@[simp] theorem lower_inFlow : s.lower.inFlow = s.inFlow := by
  simp [inFlow, lower]

/-- Whether a key may start here is the same behind a line feed. -/
@[simp] theorem lower_keyAllowed : s.lower.keyAllowed = s.keyAllowed := rfl

/-- The indentation is the same behind a line feed. -/
@[simp] theorem lower_indent : s.lower.indent = s.indent := rfl

/-- The names of anchors are the same behind a line feed. -/
@[simp] theorem lower_anchors : s.lower.anchors = s.anchors := rfl

/-- A token is added the same behind a line feed. -/
@[simp] theorem lower_emit (t : Token) : s.lower.emit t = (s.emit t).lower := rfl

/-- A token is added in front of others the same behind a line feed. -/
@[simp] theorem lower_emitAt (position : Nat) (t : Token) :
    s.lower.emitAt position t = (s.emitAt position t).lower := rfl

/-- A mark is read the same behind a line feed. -/
@[simp] theorem lower_mark (length : Nat) (t : Token) :
    s.lower.mark length t = (s.mark length t).lower := by
  simp [mark, lower, emit]

/-! ### Keys -/

/-- The start of a key is given up the same behind a line feed. -/
@[simp] theorem lower_dropKey? : s.lower.dropKey? = s.dropKey?.map lower := by
  have hrequired : (s.keyStart.map KeyStart.lower).any (·.required) =
      s.keyStart.any (·.required) := by
    cases s.keyStart <;> rfl
  simp only [dropKey?, apply_ite (Option.map lower)]
  rw [lower]
  simp only [hrequired]
  rfl

/-- The start of a key is kept the same behind a line feed. -/
@[simp] theorem lower_saveKey? : s.lower.saveKey? = s.saveKey?.map lower := by
  simp only [saveKey?, lower_keyAllowed, lower_dropKey?, apply_ite (Option.map lower)]
  cases s.dropKey? with
  | none => rfl
  | some s' => simp [lower, inFlow, KeyStart.lower, Cursor.lower]

/-- The start of a key goes stale no sooner behind a line feed. -/
theorem lower_freshKey? (c : Cursor) (k : Option KeyStart) :
    freshKey? c.lower (k.map KeyStart.lower) =
      (freshKey? c k).map (Option.map KeyStart.lower) := by
  cases k with
  | none => rfl
  | some k =>
    have hstale : (k.line + 1 < c.line + 1 ∨ k.index + 1 + maxKeyLength < c.index + 1) ↔
        (k.line < c.line ∨ k.index + maxKeyLength < c.index) := by omega
    simp only [freshKey?, Option.map_some, KeyStart.lower, Cursor.lower, hstale]
    split_ifs <;> rfl

/-- Of the starts of keys, the same go stale behind a line feed. -/
theorem lower_freshKeys? (c : Cursor) (ks : List (Option KeyStart)) :
    (ks.map (Option.map KeyStart.lower)).mapM (freshKey? c.lower) =
      (ks.mapM (freshKey? c)).map (List.map (Option.map KeyStart.lower)) := by
  induction ks with
  | nil => rfl
  | cons k ks ih =>
    rw [List.map_cons, List.mapM_cons, List.mapM_cons, lower_freshKey?, ih]
    cases freshKey? c k with
    | none => rfl
    | some k' => cases ks.mapM (freshKey? c) <;> rfl

/-- The starts of keys that went stale are given up the same behind a line feed. -/
@[simp] theorem lower_dropStaleKeys? : s.lower.dropStaleKeys? = s.dropStaleKeys?.map lower := by
  have hstart := lower_freshKey? s.cursor s.keyStart
  have hrest := lower_freshKeys? s.cursor s.outerKeys
  simp only [dropStaleKeys?, lower, hstart, hrest]
  refine bind_map_of_comm _ fun k => ?_
  exact bind_map_of_comm _ fun _ => rfl

/-! ### Indentation -/

/-- A block is opened the same behind a line feed. -/
@[simp] theorem lower_openBlock (column position : Nat) (t : Token) :
    s.lower.openBlock column position t = (s.openBlock column position t).lower := by
  simp only [openBlock, lower_inFlow, lower_emitAt, apply_ite lower]
  rfl

/-- Blocks are closed the same behind a line feed. -/
@[simp] theorem lower_closeBlocks (column : Int) :
    s.lower.closeBlocks column = (s.closeBlocks column).lower := by
  simp only [closeBlocks, lower_inFlow, apply_ite lower]
  rfl

/-! ### Reading tokens -/

/-- The place behind the white space and the comment that may follow on a line. -/
def gapEnd (s : Lexer) : Cursor :=
  let start := if s.cursor.column = 0 && s.cursor.startsWith '\uFEFF' then s.cursor.skip 1
    else s.cursor
  (start.skipWhile fun x => x = ' ' || ((s.inFlow || !s.keyAllowed) && x = '\t')).skipComment

/-- A gap ends on its line, or goes on with the next one. -/
theorem skipGaps_succ (fuel : Nat) : skipGaps (fuel + 1) s =
    if s.gapEnd.startsWithAny isBreak then
      skipGaps fuel
        { s with cursor := s.gapEnd.lineEnd.2, keyAllowed := s.keyAllowed || !s.inFlow }
    else { s with cursor := s.gapEnd } := rfl

/-- The end of a gap is behind the line feed, too. -/
@[simp] theorem lower_gapEnd : s.lower.gapEnd = s.gapEnd.lower := by
  have hstart : (if s.cursor.lower.column = 0 && s.cursor.lower.startsWith '\uFEFF' then
        s.cursor.lower.skip 1 else s.cursor.lower) =
      (if s.cursor.column = 0 && s.cursor.startsWith '\uFEFF' then s.cursor.skip 1
        else s.cursor).lower := by
    rw [lower_skip, ← apply_ite Cursor.lower]
    rfl
  rw [gapEnd, lower_cursor, lower_inFlow, lower_keyAllowed]
  simp only [hstart, lower_skipWhile, lower_skipComment]
  rfl

/-- Gaps are skipped the same behind a line feed. -/
@[simp] theorem lower_skipGaps (fuel : Nat) :
    skipGaps fuel s.lower = (skipGaps fuel s).lower := by
  induction fuel generalizing s with
  | zero => rfl
  | succ fuel ih =>
    have hnext := ih { s with
      cursor := s.gapEnd.lineEnd.2
      keyAllowed := s.keyAllowed || !s.inFlow }
    rw [skipGaps_succ, skipGaps_succ, lower_gapEnd, lower_lineEnd, lower_inFlow, apply_ite lower,
      ← hnext]
    rfl

variable {read? : Cursor → Option (Token × Cursor)}

/-- The edge of a document is read the same behind a line feed, if what stands there is. -/
theorem lower_edge? (hread : ∀ c, read? c.lower = (read? c).map (Prod.map id Cursor.lower)) :
    s.lower.edge? read? = (s.edge? read?).map lower := by
  rw [edge?, edge?, lower_closeBlocks, lower_dropKey?]
  refine bind_map_of_comm _ fun s' => ?_
  rw [lower_cursor, hread]
  exact bind_map_of_comm _ fun _ => rfl

/-- A bracket is opened the same behind a line feed. -/
@[simp] theorem lower_openBracket? (t : Token) :
    s.lower.openBracket? t = (s.openBracket? t).map lower := by
  rw [openBracket?, openBracket?, lower_saveKey?, Option.map_map, Option.map_map]
  congr 1
  funext s'
  rw [Function.comp_apply, Function.comp_apply, ← lower_mark]
  rfl

/-- A bracket is closed the same behind a line feed. -/
@[simp] theorem lower_closeBracket? (t : Token) :
    s.lower.closeBracket? t = (s.closeBracket? t).map lower := by
  rw [closeBracket?, closeBracket?, lower_dropKey?, Option.map_map, Option.map_map]
  congr 1
  funext s'
  simp only [Function.comp_apply, ← lower_mark]
  have hkeys : s'.lower.outerKeys = s'.outerKeys.map (Option.map KeyStart.lower) := rfl
  rw [hkeys]
  cases h : s'.outerKeys with
  | nil => simp [lower, h]
  | cons k ks => rfl

/-- What is done with a mark of one character, once a key has been given up. -/
theorem map_mark_lower (allowed : Lexer → Bool) (hallowed : ∀ s', allowed (lower s') = allowed s')
    (t : Token) (x : Option Lexer) :
    (x.map lower).map (fun s' => ({ s' with keyAllowed := allowed s' } : Lexer).mark 1 t) =
      (x.map fun s' => ({ s' with keyAllowed := allowed s' } : Lexer).mark 1 t).map lower := by
  rw [Option.map_map, Option.map_map]
  congr 1
  funext s'
  rw [Function.comp_apply, Function.comp_apply, ← lower_mark, hallowed]
  rfl

/-- A comma is read the same behind a line feed. -/
@[simp] theorem lower_comma? : s.lower.comma? = s.comma?.map lower := by
  rw [comma?, comma?, lower_dropKey?]
  exact map_mark_lower (fun _ => true) (fun _ => rfl) _ _

/-- A dash is read the same behind a line feed. -/
@[simp] theorem lower_dash? : s.lower.dash? = s.dash?.map lower := by
  have hopen : s.lower.openBlock s.lower.cursor.column s.lower.count .listStart =
      (s.openBlock s.cursor.column s.count .listStart).lower := lower_openBlock _ _ _ _
  rw [dash?, dash?, hopen, lower_dropKey?, lower_inFlow, apply_ite (Option.map lower),
    map_mark_lower (fun _ => true) (fun _ => rfl)]
  rfl

/-- A question mark is read the same behind a line feed. -/
@[simp] theorem lower_question? : s.lower.question? = s.question?.map lower := by
  have hopen : s.lower.openBlock s.lower.cursor.column s.lower.count .mapStart =
      (s.openBlock s.cursor.column s.count .mapStart).lower := lower_openBlock _ _ _ _
  rw [question?, question?, hopen, lower_dropKey?, lower_inFlow, apply_ite (Option.map lower),
    map_mark_lower (fun s' => !s'.inFlow) (fun s' => by rw [lower_inFlow])]
  rfl

/-- A colon is read the same behind a line feed. -/
@[simp] theorem lower_colon? : s.lower.colon? = s.colon?.map lower := by
  have hkey : s.lower.keyStart = s.keyStart.map KeyStart.lower := rfl
  rw [colon?, colon?, hkey]
  cases s.keyStart with
  | some k =>
    simp only [Option.map_some, lower_emitAt, KeyStart.lower, lower_openBlock, ← lower_mark]
    rfl
  | none =>
    have hopen : s.lower.openBlock s.lower.cursor.column s.lower.count .mapStart =
        (s.openBlock s.cursor.column s.count .mapStart).lower := lower_openBlock _ _ _ _
    simp only [Option.map_none, hopen, lower_inFlow, apply_ite (Option.map lower), Option.map_some,
      ← lower_mark]
    rfl

/-- An alias is read the same behind a line feed. -/
@[simp] theorem lower_alias? : s.lower.alias? = s.alias?.map lower := by
  rw [alias?, alias?, lower_saveKey?]
  refine bind_map_of_comm _ fun s' => ?_
  rw [lower_cursor, anchorName?_lower]
  refine bind_map_of_comm _ fun p => ?_
  -- the number of an anchor does not depend on where it stands
  simp only [lower_anchors, Prod.map, id]
  cases s'.anchors.lookup p.1 <;> rfl

/-- An anchor is read the same behind a line feed. -/
@[simp] theorem lower_anchor? : s.lower.anchor? = s.anchor?.map lower := by
  rw [anchor?, anchor?, lower_saveKey?]
  refine bind_map_of_comm _ fun s' => ?_
  rw [lower_cursor, anchorName?_lower]
  exact bind_map_of_comm _ fun _ => rfl

/-- A tag in front of a value is read the same behind a line feed. -/
@[simp] theorem lower_tagMark? : s.lower.tagMark? = s.tagMark?.map lower := by
  rw [tagMark?, tagMark?, lower_saveKey?]
  refine bind_map_of_comm _ fun s' => ?_
  rw [lower_cursor, lower_inFlow, tag?_lower]
  exact bind_map_of_comm _ fun _ => rfl

/-- A block scalar is read the same behind a line feed. -/
@[simp] theorem lower_block? (folded : Bool) :
    s.lower.block? folded = (s.block? folded).map lower := by
  rw [block?, block?, lower_dropKey?]
  refine bind_map_of_comm _ fun s' => ?_
  rw [lower_cursor, lower_indent, blockScalar?_lower]
  exact bind_map_of_comm _ fun _ => rfl

/-- A quoted scalar is read the same behind a line feed. -/
@[simp] theorem lower_quoted? (single : Bool) :
    s.lower.quoted? single = (s.quoted? single).map lower := by
  rw [quoted?, quoted?, lower_saveKey?]
  refine bind_map_of_comm _ fun s' => ?_
  rw [lower_cursor, lower_rest, lower_skip, quotedWords?_lower]
  exact bind_map_of_comm _ fun _ => rfl

/-- A plain scalar is read the same behind a line feed. -/
@[simp] theorem lower_plain? : s.lower.plain? = s.plain?.map lower := by
  rw [plain?, plain?, lower_saveKey?]
  refine bind_map_of_comm _ fun s' => ?_
  rw [lower_cursor, lower_rest, lower_inFlow, lower_indent, plainWords?_lower]
  exact bind_map_of_comm _ fun _ => rfl

/-- The next token is read the same behind a line feed. -/
@[simp] theorem lower_token? (x : Char) (r : Text) :
    s.lower.token? x r = (s.token? x r).map lower := by
  have hedge (read? : Cursor → Option (Token × Cursor))
      (hread : ∀ c, read? c.lower = (read? c).map (Prod.map id Cursor.lower)) :=
    s.lower_edge? hread
  have hmark (t : Token) := hedge (fun c => some (t, c.skip 3)) (fun c => by simp)
  simp only [token?, hedge _ directive?_lower, hmark, lower_openBracket?, lower_closeBracket?,
    lower_comma?, lower_dash?, lower_question?, lower_colon?, lower_alias?, lower_anchor?,
    lower_tagMark?, lower_block?, lower_quoted?, lower_plain?, lower_inFlow,
    apply_ite (Option.map lower)]
  rfl

/-! ## Whole documents -/

/-- All tokens are the same behind a line feed. -/
theorem run?_lower (fuel : Nat) : run? fuel s.lower = run? fuel s := by
  induction fuel generalizing s with
  | zero => rfl
  | succ fuel ih =>
    rw [run?, run?, lower_cursor, lower_rest, lower_skipGaps, lower_dropStaleKeys?]
    cases (skipGaps (s.cursor.rest.length + 1) s).dropStaleKeys? with
    | none => rfl
    | some s' =>
      simp only [Option.map_some, Option.bind_eq_bind, Option.bind_some, lower_cursor,
        lower_column, lower_closeBlocks, lower_rest, lower_dropKey?, lower_token?]
      split
      · cases ((s'.closeBlocks s'.cursor.column).closeBlocks (-1)).dropKey? <;> rfl
      · next x r _ =>
        cases (s'.closeBlocks s'.cursor.column).token? x r with
        | none => rfl
        | some s'' => exact ih s''

/-- More fuel than it takes changes nothing. -/
theorem run?_succ {fuel : Nat} {s : Lexer} {ts : List Token} (h : run? fuel s = some ts) :
    run? (fuel + 1) s = some ts := by
  induction fuel generalizing s with
  | zero => simp [run?] at h
  | succ fuel ih =>
    rw [run?] at h ⊢
    simp only [Option.bind_eq_bind, Option.bind_eq_some_iff] at h ⊢
    obtain ⟨s', hs', h⟩ := h
    refine ⟨s', hs', ?_⟩
    split at h
    · exact h
    · obtain ⟨s'', hs'', h⟩ := Option.bind_eq_some_iff.mp h
      exact Option.bind_eq_some_iff.mpr ⟨s'', hs'', ih h⟩

/-- A line feed in front of a document is passed over. -/
theorem run?_feed (fuel : Nat) (t : Text) :
    run? fuel { cursor := { rest := '\n' :: t } } =
      run? fuel (lower { cursor := { rest := t } }) := by
  cases fuel with
  | zero => rfl
  | succ fuel =>
    have hfeed : skipGaps ('\n' :: t).length.succ { cursor := { rest := '\n' :: t } } =
        skipGaps (t.length + 1) (lower { cursor := { rest := t } }) := rfl
    rw [run?, run?]
    exact congrArg (fun x => Option.bind (dropStaleKeys? x) _) hfeed

end Lexer

/-- A document is cut into the same tokens behind a line feed. -/
theorem Token.ofText?_feed {t : Text} {ts : List Token} (h : Token.ofText? t = some ts) :
    Token.ofText? ('\n' :: t) = some ts := by
  rw [Token.ofText?] at h
  split at h
  · next hall =>
    have hall' : ('\n' :: t).all isReadable = true := by
      rw [List.all_cons, hall]
      decide
    rw [Token.ofText?, if_pos hall', Lexer.run?_feed, Lexer.run?_lower]
    exact Lexer.run?_succ h
  · simp at h

/-- A document says the same behind a line feed. -/
theorem read?_feed {t : Text} {v : Value} (h : read? t = some v) : read? ('\n' :: t) = some v := by
  rw [read?, Option.bind_eq_bind, Option.bind_eq_some_iff] at h
  obtain ⟨ts, hts, h⟩ := h
  rw [read?, Token.ofText?_feed hts]
  exact h

end StyleSnippet.Yaml
