import StyleSnippet.Proofs.Css.Selector

/-!
# Commas that separate selectors

A selector list falls apart at its top-level commas and nowhere else. A comma is at the top level if
it stands outside comments and string literals and no bracket is open in front of it.

Both are told here by the code of the text alone. A comma stands outside comments and string
literals just if it is one of the characters of the code. No bracket is open at the end of a text
just if every end of its code closes as many brackets as it opens: a closing bracket too many is
taken back by nothing that comes behind it, so a selector list goes on at the top level behind it.
-/

set_option autoImplicit false

namespace StyleSnippet.Css

open Text

variable {a b r s t : Text} {c : Char} {m : Mode} {d : Nat}

/-! ## Brackets -/

/-- The brackets that open. -/
def isOpening (c : Char) : Bool := c = '(' || c = '['

/-- The brackets that close. -/
def isClosing (c : Char) : Bool := c = ')' || c = ']'

/-- The brackets that count. -/
def isBracket (c : Char) : Bool := isOpening c || isClosing c

/-- No bracket is open at the end of a text: every end of its code closes as many brackets as it
opens. -/
def NoneOpen (t : Text) : Prop := ∀ v, v <:+ codeOnly t → v.countP isOpening ≤ v.countP isClosing

/-- The closing brackets are the parenthesis and the square bracket. -/
theorem isClosing_iff : isClosing c = true ↔ c = ')' ∨ c = ']' := by
  simp [isClosing]

/-- An opening bracket adds one to the depth. -/
theorem bracketDepth_of_isOpening (h : isOpening c = true) : bracketDepth d c = d + 1 := by
  rw [bracketDepth, if_pos (by simpa [isOpening] using h)]

/-- A closing bracket takes one off the depth, which stays zero where no bracket is open. -/
theorem bracketDepth_of_isClosing (h : isClosing c = true) : bracketDepth d c = d - 1 := by
  obtain rfl | rfl := isClosing_iff.mp h
  · rfl
  · rfl

/-- Other characters leave the depth as it is. -/
theorem bracketDepth_of_not_isBracket (h : isBracket c = false) : bracketDepth d c = d := by
  simp only [isBracket, isOpening, isClosing, Bool.or_eq_false_iff, decide_eq_false_iff_not] at h
  rw [bracketDepth, if_neg (not_or.mpr h.1), if_neg (not_or.mpr h.2)]

/-- Characters that are no brackets do not count. -/
theorem foldl_filter_isBracket (l : Text) (d : Nat) :
    (l.filter isBracket).foldl bracketDepth d = l.foldl bracketDepth d := by
  induction l generalizing d with
  | nil => rfl
  | cons c l ih =>
    cases hc : isBracket c with
    | true => rw [List.filter_cons_of_pos hc, List.foldl_cons, List.foldl_cons, ih]
    | false =>
      rw [List.filter_cons_of_neg (by simp [hc]), List.foldl_cons,
        bracketDepth_of_not_isBracket hc, ih]

/-- A closing bracket opens nothing. -/
theorem isOpening_of_isClosing (h : isClosing c = true) : isOpening c = false := by
  obtain rfl | rfl := isClosing_iff.mp h
  · rfl
  · rfl

/-- What holds of the ends of a text with one more character, told by the ends without it. -/
theorem forall_suffix_concat {p : Text → Prop} {l : Text} :
    (∀ v, v <:+ l ++ [c] → p v) ↔ p [] ∧ ∀ v, v <:+ l → p (v ++ [c]) := by
  constructor
  · intro h
    exact ⟨h [] List.nil_suffix,
      fun v hv => h (v ++ [c]) (List.suffix_concat_iff.mpr (Or.inr ⟨v, rfl, hv⟩))⟩
  · rintro ⟨hnil, h⟩ v hv
    rcases List.suffix_concat_iff.mp hv with rfl | ⟨u, rfl, hu⟩
    · exact hnil
    · exact h u hu

/-- The depth behind some characters, as a bound. It is the most that an end of them leaves open,
since a bracket that closes in front of all open ones does not count. -/
theorem foldl_bracketDepth_le_iff (l : Text) (k : Nat) : l.foldl bracketDepth 0 ≤ k ↔
    ∀ v, v <:+ l → v.countP isOpening ≤ v.countP isClosing + k := by
  induction l using List.reverseRecOn generalizing k with
  | nil => simp
  | append_singleton l c ih =>
    have hends : (∀ v, v <:+ l ++ [c] → v.countP isOpening ≤ v.countP isClosing + k) ↔
        ∀ v, v <:+ l → v.countP isOpening + (if isOpening c then 1 else 0) ≤
          v.countP isClosing + (if isClosing c then 1 else 0) + k := by
      rw [forall_suffix_concat]
      simp
    rw [List.foldl_append, List.foldl_cons, List.foldl_nil, hends]
    cases hclose : isClosing c with
    | true =>
      rw [bracketDepth_of_isClosing hclose, isOpening_of_isClosing hclose,
        Nat.sub_le_iff_le_add, ih (k + 1)]
      apply forall₂_congr
      intro v _
      simp only [if_true, Bool.false_eq_true, if_false]
      omega
    | false =>
      cases hopen : isOpening c with
      | true =>
        rw [bracketDepth_of_isOpening hopen]
        cases k with
        | zero =>
          constructor
          · intro h
            omega
          · intro h
            simpa using h [] List.nil_suffix
        | succ k =>
          rw [Nat.add_le_add_iff_right, ih k]
          apply forall₂_congr
          intro v _
          simp only [if_true, Bool.false_eq_true, if_false]
          omega
      | false =>
        have hnone : isBracket c = false := by rw [isBracket, hopen, hclose, Bool.or_self]
        rw [bracketDepth_of_not_isBracket hnone, ih k]
        simp

/-- The depth behind a text is that behind its code. -/
theorem depthAfter_eq_foldl (m : Mode) (d : Nat) (t : Text) :
    depthAfter m d t = (m.codeFrom t).foldl bracketDepth d := by
  have hmarks : ∀ c ∈ spanMarks, isBracket c = false := by decide
  rw [← foldl_filter_isBracket, Mode.filter_codeFrom hmarks]
  induction t generalizing m d with
  | nil => rfl
  | cons c r ih =>
    rw [depthAfter, ih, Mode.inCode]
    cases hm : m.isCode with
    | false => rfl
    | true =>
      cases hc : isBracket c with
      | false => simp [bracketDepth_of_not_isBracket hc]
      | true => rfl

/-- The depth is zero just where no bracket is open. -/
theorem depthAfter_eq_zero_iff : depthAfter .code 0 t = 0 ↔ NoneOpen t := by
  rw [depthAfter_eq_foldl, ← codeOnly_eq, ← Nat.le_zero, foldl_bracketDepth_le_iff]
  rfl

/-! ## The top level -/

/-- A splitter that has read the text stands outside comments and string literals, at depth zero. -/
structure TopLevel (t : Text) : Prop where
  code : (Mode.after .code t).isCode = true
  depth : depthAfter .code 0 t = 0

/-- A text ends at the top level just if a comma behind it is code and no bracket is open. -/
theorem topLevel_iff :
    TopLevel t ↔ codeOnly (t ++ [',']) = codeOnly t ++ [','] ∧ NoneOpen t := by
  rw [← isCode_after_iff (by decide), ← depthAfter_eq_zero_iff]
  exact ⟨fun h => ⟨h.code, h.depth⟩, fun h => ⟨h.1, h.2⟩⟩

namespace TopLevel

/-- A bracket that closes none leaves the top level as it is. -/
theorem concat_isClosing (h : TopLevel t) (hc : isClosing c = true) : TopLevel (t ++ [c]) := by
  have hmark : c ∉ spanMarks := by
    obtain rfl | rfl := isClosing_iff.mp hc
    · decide
    · decide
  constructor
  · rw [Mode.after_append, Mode.after_cons, Mode.next_of_isCode h.code hmark]
    rfl
  · rw [depthAfter_append, h.depth, depthAfter, if_pos h.code, bracketDepth_of_isClosing hc]
    rfl

/-- Behind a comma at the top level, a text ends there as it would on its own. -/
theorem append_comma_iff (h : TopLevel s) : TopLevel (s ++ ',' :: t) ↔ TopLevel t := by
  have hafter : Mode.after .code (s ++ ',' :: t) = Mode.after .code t := by
    rw [Mode.after_append, Mode.after_cons, Mode.next_comma h.code]
  have hdepth : depthAfter .code 0 (s ++ ',' :: t) = depthAfter .code 0 t := by
    rw [depthAfter_append, h.depth, depthAfter, if_pos h.code, Mode.next_comma h.code]
    rfl
  constructor
  · rintro ⟨hcode, hd⟩
    exact ⟨hafter ▸ hcode, hdepth ▸ hd⟩
  · rintro ⟨hcode, hd⟩
    exact ⟨hafter ▸ hcode, hdepth ▸ hd⟩

end TopLevel

/-! ## The parts of a list -/

/-- The first part of a list ends at the first comma at the top level. -/
theorem splitSelectors_of_solid (hs : Solid .code 0 s) (h : TopLevel s) (t : Text) :
    splitSelectors (s ++ ',' :: t) = s :: splitSelectors t := by
  rw [splitSelectors, splitFrom_append hs, h.depth, splitFrom_comma h.code, List.append_nil]

/-- A list falls apart at each comma at the top level. -/
theorem splitSelectors_append_comma (h : TopLevel a) (b : Text) :
    splitSelectors (a ++ ',' :: b) = splitSelectors a ++ splitSelectors b := by
  induction a using splitSelectors_induction with
  | one s hs => exact splitSelectors_of_solid hs h b
  | cons s r hs hm hd ih =>
    have htop : TopLevel s := ⟨hm, hd⟩
    rw [List.append_assoc, List.cons_append, splitSelectors_of_solid hs htop,
      ih (htop.append_comma_iff.mp h), List.cons_append]

/-- No comma splits a selector of a list. -/
theorem solid_of_mem (h : s ∈ splitSelectors t) : Solid .code 0 s := by
  induction t using splitSelectors_induction with
  | one r hr =>
    obtain rfl := List.mem_singleton.mp h
    exact hr
  | cons q r hq _ _ ih =>
    rcases List.mem_cons.mp h with rfl | h
    · exact hq
    · exact ih h

/-- No part of a list falls apart. -/
theorem splitSelectors_of_mem (h : s ∈ splitSelectors t) : splitSelectors s = [s] := by
  rw [splitSelectors, splitFrom_of_solid (solid_of_mem h)]

/-- The splitter takes the comma between two texts for a separator: the parts of the list in front
of it make up the first text, and those behind it the second one. -/
def SplitsAt (t a b : Text) : Prop :=
  ∃ l r, splitSelectors t = l ++ r ∧ l ≠ [] ∧ r ≠ [] ∧
    [','].intercalate l = a ∧ [','].intercalate r = b

/-- The parts in front of a separator end at the top level. -/
theorem topLevel_of_splitSelectors {l r : List Text} (h : splitSelectors t = l ++ r) (hl : l ≠ [])
    (hr : r ≠ []) : TopLevel ([','].intercalate l) := by
  induction t using splitSelectors_induction generalizing l with
  | one s _ =>
    have hlength := congrArg List.length h
    have := List.length_pos_iff.mpr hl
    have := List.length_pos_iff.mpr hr
    simp only [List.length_append, List.length_singleton] at hlength
    omega
  | cons s q _ hm hd ih =>
    obtain ⟨p, ps, rfl⟩ := List.exists_cons_of_ne_nil hl
    rw [List.cons_append, List.cons.injEq] at h
    obtain ⟨rfl, h⟩ := h
    have htop : TopLevel s := ⟨hm, hd⟩
    cases ps with
    | nil => rwa [List.intercalate_singleton]
    | cons p ps =>
      rw [List.intercalate_cons_cons, List.append_assoc, List.singleton_append,
        htop.append_comma_iff]
      exact ih h (List.cons_ne_nil p ps)

/-- The separators are the commas at the top level. -/
theorem splitsAt_iff : SplitsAt t a b ↔ t = a ++ ',' :: b ∧ TopLevel a := by
  constructor
  · rintro ⟨l, r, h, hl, hr, rfl, rfl⟩
    refine ⟨?_, topLevel_of_splitSelectors h hl hr⟩
    rw [← intercalate_splitSelectors t, h, intercalate_append [','] hl hr, List.singleton_append]
  · rintro ⟨rfl, ha⟩
    exact ⟨splitSelectors a, splitSelectors b, splitSelectors_append_comma ha b,
      List.cons_ne_nil _ _, List.cons_ne_nil _ _, intercalate_splitSelectors a,
      intercalate_splitSelectors b⟩

/-- A list falls apart at its top-level commas. Its parts make up the list and fall apart no
further, and what stands on either side of a comma at the top level is split as on its own. A comma
separates just if it stands at the top level, which is to say that it is code and no bracket is open
in front of it. A closing bracket that closes none does not change that. -/
theorem splitSelectors_topLevel (t : Text) :
    [','].intercalate (splitSelectors t) = t ∧
    (∀ s ∈ splitSelectors t, splitSelectors s = [s]) ∧
    (∀ a b, TopLevel a → splitSelectors (a ++ ',' :: b) = splitSelectors a ++ splitSelectors b) ∧
    (∀ a b, SplitsAt t a b ↔ t = a ++ ',' :: b ∧ TopLevel a) ∧
    (∀ a, TopLevel a ↔ codeOnly (a ++ [',']) = codeOnly a ++ [','] ∧ NoneOpen a) ∧
    ∀ a c, TopLevel a → isClosing c = true → TopLevel (a ++ [c]) :=
  ⟨intercalate_splitSelectors t, fun _ => splitSelectors_of_mem,
    fun _ b ha => splitSelectors_append_comma ha b, fun _ _ => splitsAt_iff, fun _ => topLevel_iff,
    fun _ _ ha hc => ha.concat_isClosing hc⟩

/-- A closing bracket that closes none, commas in brackets of both kinds, one in a string literal
behind a quote that is escaped, and one in a comment. -/
def bracketedList : Text := "a],:is(b,[c,d])'\\',',/*,*/"

/-- Another closing bracket that closes none, and a comma in a string literal that does not end. -/
def unclosedList : Text := "e),'f,g"

/-- Lists with commas in brackets, string literals and comments, and with a bracket too many: where
they split, and what their selectors are. -/
theorem splitSelectors_topLevel_bracketed : TopLevel bracketedList ∧ isClosing ')' = true ∧
    TopLevel (bracketedList ++ [')']) ∧
    SplitsAt (bracketedList ++ ',' :: unclosedList) bracketedList unclosedList ∧
    "e)".toList ∈ splitSelectors unclosedList ∧ splitSelectors "e)" = ["e)".toList] ∧
    splitSelectors (bracketedList ++ ',' :: unclosedList) =
      ["a]".toList, ":is(b,[c,d])'\\','".toList, "/*,*/".toList, "e)".toList, "'f,g".toList] := by
  have htop : TopLevel bracketedList := ⟨by decide +kernel, by decide +kernel⟩
  have hmem : "e)".toList ∈ splitSelectors unclosedList := by decide +kernel
  obtain ⟨-, -, happend, hsplits, -, hclosing⟩ :=
    splitSelectors_topLevel (bracketedList ++ ',' :: unclosedList)
  refine ⟨htop, rfl, hclosing _ _ htop rfl, (hsplits _ _).mpr ⟨rfl, htop⟩, hmem,
    (splitSelectors_topLevel unclosedList).2.1 _ hmem, ?_⟩
  rw [happend _ _ htop]
  decide +kernel

end StyleSnippet.Css
