import StyleSnippet.Css.Layout
import StyleSnippet.Proofs.Css.Comma
import StyleSnippet.Proofs.Css.Recorded

/-!
# The readers of CSS agree on what is code

Four readers take a stylesheet apart into code, comments and string literals: the scan, the search
for an at-rule name, the count of braces that lines are indented by, and the splitter of selector
lists. The search skips comments and string literals as a whole, and the others go by characters.

The characters that the search leaves over are taken here for the code of a text, and the other
readers are compared with it. All of them agree, also on comments and string literals that do not
end.
-/

set_option autoImplicit false

namespace StyleSnippet.Css

open Text

variable {scope t : Text} {m : Mode} {c q : Char} {s : Scan}

/-! ## The braces of a scan -/

/-- The characters that blocks are opened and closed by. -/
def isBrace (c : Char) : Bool := c = '{' || c = '}'

namespace Scan

/-- The characters of a text at which a scan opens a block or closes one. It also does the latter
where no block is open. -/
def blockBraces (scope : Text) (s : Scan) : Text → Text
  | [] => []
  | c :: r =>
    if s.step scope c = s.openBlock scope ∨ s.step scope c = s.closeBlock then
      c :: (s.step scope c).blockBraces scope r
    else (s.step scope c).blockBraces scope r

/-- A scan opens a block just at an opening brace that is code. -/
theorem step_eq_openBlock_iff :
    s.step scope c = s.openBlock scope ↔ s.mode.isCode = true ∧ c = '{' := by
  constructor
  · intro h
    by_contra hno
    have hrecords := congrArg (·.records.length) h
    simp only [records_step, if_neg (mt (isBoundary_brace_iff s.stack).mp hno)] at hrecords
    simp [openBlock] at hrecords
  · rintro ⟨hm, rfl⟩
    rw [step, if_pos hm, if_pos rfl]

/-- A scan closes a block just at a closing brace that is code. -/
theorem step_eq_closeBlock_iff :
    s.step scope c = s.closeBlock ↔ s.mode.isCode = true ∧ c = '}' := by
  constructor
  · intro h
    cases hb : isBoundary s.stack s.mode c with
    | false =>
      have hheld := congrArg held h
      rw [step_of_not_isBoundary hb] at hheld
      simp [hold, closeBlock, flush] at hheld
    | true =>
      have hdone := congrArg done h
      rw [step_of_isBoundary hb] at hdone
      simp only [isBoundary, Bool.and_eq_true] at hb
      exact ⟨hb.1, (List.cons.inj hdone).1⟩
  · rintro ⟨hm, rfl⟩
    rw [step, if_pos hm, if_neg (by decide), if_pos rfl]

/-- A scan opens and closes blocks at the braces that are code. -/
theorem blockBraces_eq (scope : Text) (s : Scan) (t : Text) :
    s.blockBraces scope t = s.mode.inCode isBrace t := by
  induction t generalizing s with
  | nil => rfl
  | cons c r ih =>
    have hiff : (s.step scope c = s.openBlock scope ∨ s.step scope c = s.closeBlock) ↔
        (s.mode.isCode && isBrace c) = true := by
      rw [step_eq_openBlock_iff, step_eq_closeBlock_iff, ← and_or_left]
      simp [isBrace]
    rw [blockBraces, Mode.inCode, ih, mode_step]
    simp only [hiff]

end Scan

/-- A character of code that is a brace is the first of the braces in code, and counts as such. -/
theorem Mode.count_inCode_cons {x : Char} (hx : isBrace x = true) (m : Mode) (c : Char) (r : Text) :
    (m.inCode isBrace (c :: r)).count x =
      (if m.isCode = true ∧ c = x then 1 else 0) + ((m.next c).inCode isBrace r).count x := by
  rw [inCode]
  by_cases hc : c = x
  · subst hc
    cases m.isCode with
    | false => simp
    | true => simp [hx, Nat.add_comm]
  · have hno : ¬ (m.isCode = true ∧ c = x) := fun h => hc h.2
    rw [if_neg hno, Nat.zero_add]
    split
    · exact List.count_cons_of_ne hc
    · rfl

/-- There are as many places of opening braces as opening braces that are read as code. -/
theorem Mode.length_bracesFrom (m : Mode) (k : Nat) (u : Text) :
    (m.bracesFrom k u).length = (m.inCode isBrace u).count '{' := by
  induction u generalizing m k with
  | nil => rfl
  | cons c r ih =>
    rw [bracesFrom, count_inCode_cons rfl]
    simp only [Bool.and_eq_true, decide_eq_true_eq]
    split
    · rw [List.length_cons, ih, Nat.add_comm]
    · rw [ih, Nat.zero_add]

/-- As many blocks are recorded as braces open one. -/
theorem length_blocks (scope t : Text) :
    (scan scope t).blocks.length = (Mode.inCode isBrace .code t).count '{' := by
  rw [← (forall₂_recordsBrace scope t []).length_eq, Mode.length_bracesFrom]

/-! ## The count of braces -/

/-- Counting goes by the braces in code and by modes. -/
theorem BraceCount.foldl_step_eq (b : BraceCount) (t : Text) : t.foldl step b =
    { opens := b.opens + (b.mode.inCode isBrace t).count '{'
      closes := b.closes + (b.mode.inCode isBrace t).count '}'
      mode := b.mode.after t } := by
  induction t generalizing b with
  | nil => rfl
  | cons c r ih =>
    rw [List.foldl_cons, ih, Mode.count_inCode_cons rfl, Mode.count_inCode_cons rfl]
    simp only [step, Mode.after_cons, BraceCount.mk.injEq, and_true]
    constructor
    · split <;> omega
    · split <;> omega

/-! ## Comments that do not end -/

namespace Mode

/-- The quote that a string literal was opened by, in a mode inside of one. -/
def quote? : Mode → Option Char
  | quoted q | escaped q => some q
  | _ => none

/-- A string literal goes on with the quote that opened it. -/
theorem quote?_next (h : (m.next c).quote? = some q) : m.quote? = some q ∨ q = '"' ∨ q = '\'' := by
  have hcode (h : (afterCode c).quote? = some q) : q = '"' ∨ q = '\'' := by
    rw [afterCode] at h
    split at h
    · simp [quote?] at h
    · split at h
      · next hc =>
        obtain rfl : c = q := by simpa [quote?] using h
        exact hc
      · simp [quote?] at h
  cases m with
  | code => exact Or.inr (hcode h)
  | slash =>
    rw [next] at h
    split at h
    · simp [quote?] at h
    · exact Or.inr (hcode h)
  | comment =>
    rw [next] at h
    split at h <;> simp [quote?] at h
  | star =>
    rw [next] at h
    split at h
    · simp [quote?] at h
    · split at h <;> simp [quote?] at h
  | quoted q' =>
    rw [next] at h
    split at h
    · exact Or.inl h
    · split at h
      · simp [quote?] at h
      · exact Or.inl h
  | escaped q' => exact Or.inl h

/-- A string literal that is open was opened by one of the two quotes. -/
theorem quote?_after (h : (Mode.after .code t).quote? = some q) : q = '"' ∨ q = '\'' := by
  induction t using List.reverseRecOn with
  | nil => simp [quote?] at h
  | append_singleton t c ih =>
    rw [after_append] at h
    exact (quote?_next h).elim ih id

/-- A comment is open just where the end of one brings back to code, whatever follows. -/
theorem isComment_iff (hm : ∀ q, m.quote? = some q → q = '"' ∨ q = '\'') : m.isComment = true ↔
    ∀ r, m.codeFrom ("*/".toList ++ r) = m.codeFrom [] ++ codeFrom .code r := by
  cases m with
  | code => exact ⟨fun h => absurd h (by decide), fun h => absurd (h []) (by decide)⟩
  | slash => exact ⟨fun h => absurd h (by decide), fun h => absurd (h []) (by decide)⟩
  | comment => exact ⟨fun _ r => codeFrom_append .comment _ r, fun _ => rfl⟩
  | star => exact ⟨fun _ r => codeFrom_append .star _ r, fun _ => rfl⟩
  | quoted q =>
    obtain rfl | rfl := hm q rfl
    · exact ⟨fun h => absurd h (by decide), fun h => absurd (h ['x']) (by decide)⟩
    · exact ⟨fun h => absurd h (by decide), fun h => absurd (h ['x']) (by decide)⟩
  | escaped q =>
    obtain rfl | rfl := hm q rfl
    · exact ⟨fun h => absurd h (by decide), fun h => absurd (h ['x']) (by decide)⟩
    · exact ⟨fun h => absurd h (by decide), fun h => absurd (h ['x']) (by decide)⟩

end Mode

/-- A text ends inside a comment just if the end of one behind it brings back to code. -/
theorem isComment_after_iff (t : Text) : (Mode.after .code t).isComment = true ↔
    ∀ r, codeOnly (t ++ "*/".toList ++ r) = codeOnly t ++ codeOnly r := by
  rw [Mode.isComment_iff fun q => Mode.quote?_after]
  apply forall_congr'
  intro r
  rw [codeOnly_eq, codeOnly_eq, codeOnly_eq, Mode.codeFrom_eq .code t, List.append_assoc,
    List.append_assoc, Mode.codeFrom_append .code t, List.append_cancel_left_eq]

/-! ## Agreement -/

/-- The readers of CSS agree on the code of a text. -/
structure ReadersAgree (scope t : Text) : Prop where
  /-- A scan opens and closes blocks at the braces of the code, one after the other. -/
  braces : Scan.blockBraces scope {} t = (codeOnly t).filter isBrace
  /-- It records a block for each opening brace. -/
  recorded : (scan scope t).blocks.length = (codeOnly t).count '{'
  /-- The count of braces gives the number of those that open a block of the scan. -/
  opens : (BraceCount.ofText false t).opens = (Scan.blockBraces scope {} t).count '{'
  /-- It gives the number of those that close one. -/
  closes : (BraceCount.ofText false t).closes = (Scan.blockBraces scope {} t).count '}'
  /-- It ends inside a comment just if the scan does. -/
  comment : (BraceCount.ofText false t).mode.isComment = (Scan.read scope t).mode.isComment
  /-- The scan does so just if the end of a comment behind the text brings back to code. -/
  unclosed : (Scan.read scope t).mode.isComment = true ↔
    ∀ r, codeOnly (t ++ "*/".toList ++ r) = codeOnly t ++ codeOnly r
  /-- A comma that separates selectors is a comma of the code. -/
  commas : ∀ a b, SplitsAt t a b → codeOnly t = codeOnly a ++ ',' :: codeOnly b

/-- The readers of a text agree, whatever the scope and the text are: the scan, the splitter of
selector lists, the line counter and the code of the text take the same characters for code. -/
theorem readersAgree (scope t : Text) : ReadersAgree scope t := by
  have hmarks : ∀ c ∈ spanMarks, isBrace c = false := by decide
  have hcode : (codeOnly t).filter isBrace = Mode.inCode isBrace .code t := by
    rw [codeOnly_eq, Mode.filter_codeFrom hmarks]
  have hbraces : Scan.blockBraces scope {} t = Mode.inCode isBrace .code t :=
    Scan.blockBraces_eq scope {} t
  have hcount : BraceCount.ofText false t = _ := BraceCount.foldl_step_eq {} t
  have hmode := Scan.mode_read scope t
  refine ⟨hbraces.trans hcode.symm, ?_, ?_, ?_, ?_, ?_, ?_⟩
  · rw [length_blocks, ← hcode, List.count_filter rfl]
  · rw [hcount, hbraces]
    exact Nat.zero_add _
  · rw [hcount, hbraces]
    exact Nat.zero_add _
  · rw [hcount, hmode]
  · rw [hmode]
    exact isComment_after_iff t
  · intro a b h
    obtain ⟨rfl, ha⟩ := splitsAt_iff.mp h
    exact codeOnly_append_cons ha.code (by decide)

/-- Selectors in front of a block, with a comma, a brace and an escaped quote in a string literal, a
comment that a solidus starts, a closing brace too many, an empty comment, and one that does not
end. -/
def unclosedSheet : Text := ".a,[b='\\'\x7b,']\x7b/*/\x7b*/c:\"\x7d\"\x7d\x7d/**/d\x7b/*\x7b"

/-- What stands behind its first comma. -/
def unclosedRest : Text := "[b='\\'\x7b,']\x7b/*/\x7b*/c:\"\x7d\"\x7d\x7d/**/d\x7b/*\x7b"

/-- A sheet with a comma in a string literal, a brace in a comment and a comment that does not end:
the readers agree, and what they agree on is told. -/
theorem readersAgree_unclosed : ReadersAgree ".ns" unclosedSheet ∧
    SplitsAt unclosedSheet ".a" unclosedRest ∧
    codeOnly unclosedSheet = codeOnly ".a" ++ ',' :: codeOnly unclosedRest ∧
    Scan.blockBraces ".ns" {} unclosedSheet = "\x7b\x7d\x7d\x7b".toList ∧
    (Scan.read ".ns" unclosedSheet).mode.isComment = true := by
  have h := readersAgree ".ns" unclosedSheet
  have hsplits : SplitsAt unclosedSheet ".a" unclosedRest :=
    splitsAt_iff.mpr ⟨rfl, by decide +kernel, by decide +kernel⟩
  exact ⟨h, hsplits, h.commas _ _ hsplits, by decide +kernel, by decide +kernel⟩

end StyleSnippet.Css
