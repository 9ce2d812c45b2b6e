import StyleSnippet.Proofs.Css.Layout
import StyleSnippet.Proofs.Css.Reading
import StyleSnippet.Proofs.Css.Relaid

/-!
# Indentation follows the nesting

How deep a line belongs is a matter of the braces in front of it that are code, so it depends on how
a reader takes the stylesheet apart into code, comments and string literals. `nestedLines` tells the
lines of a stylesheet, each as deep as it belongs, for any such reading.

The lines of an indented stylesheet are these lines for the reading `lineMode`, which carries
comments from line to line and ends a string literal with its line. A scan carries string literals
as well. The two readings agree up to the first line feed in a string literal, and so far the
indentation follows the blocks that a scan opens and closes.
-/

set_option autoImplicit false

namespace StyleSnippet.Css

open Text

variable {scope s t u v before p : Text} {c : Char} {d : Nat} {ic : Bool} {mode mode' : Text → Mode}

/-! ## The law of nesting -/

/-- How often a character is code in a text that follows another text. -/
def countInCode (mode : Text → Mode) (c : Char) (before : Text) : Text → Nat
  | [] => 0
  | x :: r =>
    (if (mode before).isCode ∧ x = c then 1 else 0) + countInCode mode c (before ++ [x]) r

/-- The depth behind a line, where `d` is the depth in front of it. -/
def depthBehind (mode : Text → Mode) (before : Text) (d : Nat) (p : Text) : Nat :=
  d + countInCode mode '{' before p - countInCode mode '}' before p

/-- The level of a line, where `d` is the depth in front of it: a brace that closes a block and
starts the line is one level out. -/
def nestedLevel (mode : Text → Mode) (before : Text) (d : Nat) (p : Text) : Nat :=
  if (trim p).head? = some '}' ∧ (mode (before ++ p.takeWhile isBlank)).isCode then d - 1 else d

/-- The lines that are not blank, trimmed and indented by their levels. -/
def nestedLines (mode : Text → Mode) (before : Text) (d : Nat) : List Text → List Text
  | [] => []
  | p :: ps =>
    let rest := nestedLines mode (before ++ p ++ ['\n']) (depthBehind mode before d p) ps
    if trim p = [] then rest else indent (nestedLevel mode before d p) (trim p) :: rest

/-- A character is counted in two texts, one behind the other. -/
theorem countInCode_append (mode : Text → Mode) (c : Char) (before s t : Text) :
    countInCode mode c before (s ++ t) =
      countInCode mode c before s + countInCode mode c (before ++ s) t := by
  induction s generalizing before with
  | nil => simp [countInCode]
  | cons x s ih => simp [countInCode, ih, Nat.add_assoc]

/-- A character that is not in a text is not counted in it. -/
theorem countInCode_eq_zero (h : c ∉ t) : countInCode mode c before t = 0 := by
  induction t generalizing before with
  | nil => rfl
  | cons x t ih =>
    rw [List.mem_cons, not_or] at h
    rw [countInCode, ih h.2, if_neg fun hx => h.1 hx.2.symm]

/-- The white space around a line does not count. -/
theorem countInCode_eq_trim (hc : isBlank c = false) : countInCode mode c before p =
    countInCode mode c (before ++ p.takeWhile isBlank) (trim p) := by
  obtain ⟨v, hv, hp⟩ := exists_eq_takeWhile_append_trim p
  have hlead : countInCode mode c before (p.takeWhile isBlank) = 0 :=
    countInCode_eq_zero (not_mem_of_blank hc (blank_takeWhile p))
  conv_lhs => rw [hp]
  rw [countInCode_append, countInCode_append, hlead, countInCode_eq_zero (not_mem_of_blank hc hv)]
  omega

/-! ## Readings that agree -/

/-- Readings that agree up to the end of a text count alike in it. -/
theorem countInCode_congr (h : ∀ s, s <+: t → mode (before ++ s) = mode' (before ++ s)) :
    countInCode mode c before t = countInCode mode' c before t := by
  induction t generalizing before with
  | nil => rfl
  | cons x t ih =>
    have hhere := h [] List.nil_prefix
    rw [List.append_nil] at hhere
    rw [countInCode, countInCode, hhere, ih]
    intro s hs
    simpa using h (x :: s) (List.cons_prefix_cons.mpr ⟨rfl, hs⟩)

/-- The lines depend on how the starts of the stylesheet are read, and on nothing else. -/
theorem nestedLines_congr {ps : List Text}
    (h : ∀ s, s <+: ['\n'].intercalate ps → mode (before ++ s) = mode' (before ++ s)) :
    nestedLines mode before d ps = nestedLines mode' before d ps := by
  induction ps generalizing before d with
  | nil => rfl
  | cons p ps ih =>
    have hp (s : Text) (hs : s <+: p) : mode (before ++ s) = mode' (before ++ s) := by
      apply h
      rw [intercalate_cons]
      exact hs.trans (List.prefix_append _ _)
    have hlevel : nestedLevel mode before d p = nestedLevel mode' before d p := by
      rw [nestedLevel, nestedLevel, hp _ (List.takeWhile_prefix _)]
    have hdepth : depthBehind mode before d p = depthBehind mode' before d p := by
      rw [depthBehind, depthBehind, countInCode_congr hp, countInCode_congr hp]
    have hrest (d : Nat) : nestedLines mode (before ++ p ++ ['\n']) d ps =
        nestedLines mode' (before ++ p ++ ['\n']) d ps := by
      cases ps with
      | nil => rfl
      | cons q qs =>
        apply ih
        intro s hs
        have hlonger : p ++ ['\n'] ++ s <+: ['\n'].intercalate (p :: q :: qs) := by
          rw [intercalate_cons, List.flatMap_cons, List.append_assoc, List.append_assoc,
            ← intercalate_cons]
          exact (List.prefix_append_right_inj p).mpr ((List.prefix_append_right_inj ['\n']).mpr hs)
        simpa using h _ hlonger
    rw [nestedLines, nestedLines, hlevel, hdepth, hrest]

/-- Lines stay as they are when others follow. -/
theorem nestedLines_isPrefix (mode : Text → Mode) (before : Text) (d : Nat) (ps qs : List Text) :
    nestedLines mode before d ps <+: nestedLines mode before d (ps ++ qs) := by
  induction ps generalizing before d with
  | nil => exact List.nil_prefix
  | cons p ps ih =>
    rw [List.cons_append, nestedLines, nestedLines]
    split
    · exact ih _ _
    · exact List.cons_prefix_cons.mpr ⟨rfl, ih _ _⟩

/-! ## String literals that end with their lines -/

namespace Mode

/-- Whether a mode is inside a string literal. -/
def isString : Mode → Bool
  | quoted _ | escaped _ => true
  | _ => false

/-- The mode after one more character, where a line feed ends a string literal. -/
def nextInLine (m : Mode) (c : Char) : Mode := if c = '\n' ∧ m.isString then code else m.next c

/-- The mode that a line starts in. -/
def lineStart (ic : Bool) : Mode := if ic then comment else code

/-- A line starts in a comment just if it was told so. -/
theorem isComment_lineStart (ic : Bool) : (lineStart ic).isComment = ic := by cases ic <;> rfl

/-- A line that does not start in a comment starts in code. -/
theorem isCode_lineStart (ic : Bool) : (lineStart ic).isCode = !ic := by cases ic <;> rfl

/-- White space leaves the start of a line as it is. -/
theorem after_lineStart (hu : Blank u) : (lineStart ic).after u = lineStart ic := by
  by_cases hne : u = []
  · rw [hne, after_nil]
  · cases ic <;> exact after_blank (by trivial) hu hne

/-- A comment goes on behind a line feed, and code follows anything else. -/
theorem nextInLine_feed (m : Mode) : m.nextInLine '\n' = lineStart m.isComment := by
  cases m <;> rfl

/-- White space neither opens a comment nor closes one. -/
theorem isComment_after_blank {m : Mode} (h : m.Proper) (hu : Blank u) :
    (m.after u).isComment = m.isComment := by
  by_cases hne : u = []
  · rw [hne, after_nil]
  · rw [after_blank h hu hne]
    cases m <;> rfl

end Mode

/-- What a text leaves open when its string literals end with their lines. -/
def lineMode (t : Text) : Mode := t.foldl Mode.nextInLine .code

/-- A text that ends in one more character, which may be the line feed that ends a string literal.
-/
theorem lineMode_concat (t : Text) (c : Char) :
    lineMode (t ++ [c]) = (lineMode t).nextInLine c := by
  rw [lineMode, List.foldl_append]
  rfl

/-- Without a line feed, a text is read behind another one as a scan reads it. -/
theorem lineMode_append (h : '\n' ∉ t) (s : Text) : lineMode (s ++ t) = (lineMode s).after t := by
  induction t using List.reverseRecOn with
  | nil => rw [List.append_nil, Mode.after_nil]
  | append_singleton t c ih =>
    rw [List.mem_append, List.mem_singleton, not_or] at h
    rw [← List.append_assoc, lineMode_concat, ih h.1, Mode.after_append, Mode.nextInLine,
      if_neg fun hc => h.2 hc.1.symm]
    rfl

/-- No string literal is open that white space would end. -/
theorem proper_lineMode (t : Text) : (lineMode t).Proper := by
  induction t using List.reverseRecOn with
  | nil => trivial
  | append_singleton t c ih =>
    rw [lineMode_concat, Mode.nextInLine]
    split
    · trivial
    · exact Mode.proper_next ih c

/-- The mode at the start of the next line. -/
theorem lineMode_feed (hv : Blank v) (hfeed : '\n' ∉ v) (s : Text) :
    lineMode (s ++ v ++ ['\n']) = .lineStart (lineMode s).isComment := by
  rw [lineMode_concat, Mode.nextInLine_feed, lineMode_append hfeed,
    Mode.isComment_after_blank (proper_lineMode s) hv]

/-! ## The lines of an indented stylesheet -/

/-- The braces of a line are counted as its string literals end with it. -/
theorem BraceCount.foldl_step {b : BraceCount} (hb : b.mode = lineMode before) (ht : '\n' ∉ t) :
    t.foldl step b =
      { opens := b.opens + countInCode lineMode '{' before t
        closes := b.closes + countInCode lineMode '}' before t
        mode := lineMode (before ++ t) } := by
  induction t generalizing b before with
  | nil => rw [List.append_nil, ← hb]; rfl
  | cons c t ih =>
    have hfeed := ht
    rw [List.mem_cons, not_or] at hfeed
    have hmode : (b.step c).mode = lineMode (before ++ [c]) := by
      rw [lineMode_append (by simpa using hfeed.1), ← hb]
      rfl
    rw [List.foldl_cons, ih hmode hfeed.2, countInCode, countInCode, ← hb, List.append_assoc]
    simp only [step, List.singleton_append, BraceCount.mk.injEq, and_true]
    refine ⟨?_, ?_⟩ <;> split <;> omega

/-- The braces of a line are counted from the mode that the line starts in. -/
theorem BraceCount.ofText_eq (h : lineMode before = .lineStart ic) (ht : '\n' ∉ t) :
    BraceCount.ofText ic t =
      { opens := countInCode lineMode '{' before t
        closes := countInCode lineMode '}' before t
        mode := lineMode (before ++ t) } := by
  have hcount : BraceCount.ofText ic t = _ :=
    BraceCount.foldl_step (b := { mode := .lineStart ic }) h.symm ht
  simpa using hcount

section Line

variable (h : lineMode before = .lineStart ic) (hp : '\n' ∉ p)

include h hp

/-- The white space in front of a line leaves the mode that the line starts in. -/
theorem lineMode_takeWhile : lineMode (before ++ p.takeWhile isBlank) = .lineStart ic := by
  have hlead : '\n' ∉ p.takeWhile isBlank := fun hn => hp ((List.takeWhile_prefix _).subset hn)
  rw [lineMode_append hlead, h, Mode.after_lineStart (blank_takeWhile p)]

/-- The braces of a trimmed line are those of the line. -/
theorem ofText_trim : BraceCount.ofText ic (trim p) =
    { opens := countInCode lineMode '{' before p
      closes := countInCode lineMode '}' before p
      mode := lineMode (before ++ p.takeWhile isBlank ++ trim p) } := by
  have hline : '\n' ∉ trim p := fun hn => hp ((isInfix_trim p).subset hn)
  rw [countInCode_eq_trim (c := '{') (by decide), countInCode_eq_trim (c := '}') (by decide)]
  exact BraceCount.ofText_eq (lineMode_takeWhile h hp) hline

/-- The depth behind a line is told by the braces of the trimmed line. -/
theorem depthBehind_lineMode (d : Nat) : depthBehind lineMode before d p =
    d + (BraceCount.ofText ic (trim p)).opens - (BraceCount.ofText ic (trim p)).closes := by
  rw [ofText_trim h hp, depthBehind]

/-- The level of a line is told by the trimmed line. -/
theorem nestedLevel_lineMode (d : Nat) :
    nestedLevel lineMode before d p = lineLevel d ic (trim p) := by
  rw [nestedLevel, lineLevel, lineMode_takeWhile h hp, Mode.isCode_lineStart]
  simp

/-- The next line starts in the mode that the trimmed line ends in. -/
theorem lineMode_next : lineMode (before ++ p ++ ['\n']) =
    .lineStart (BraceCount.ofText ic (trim p)).mode.isComment := by
  obtain ⟨v, hv, hsplit⟩ := exists_eq_takeWhile_append_trim p
  have hfeed : '\n' ∉ v := by
    intro hn
    apply hp
    rw [hsplit]
    exact List.mem_append_right _ hn
  have hend := lineMode_feed hv hfeed (before ++ p.takeWhile isBlank ++ trim p)
  rw [ofText_trim h hp, ← hend]
  conv_lhs => rw [hsplit]
  simp only [List.append_assoc]

end Line

/-- Lines are indented by their levels. -/
theorem indentLines_eq_nestedLines {ps : List Text} (h : lineMode before = .lineStart ic)
    (hps : ∀ p ∈ ps, '\n' ∉ p) :
    indentLines d ic ((ps.map trim).filter fun line => !line.isEmpty) =
      nestedLines lineMode before d ps := by
  induction ps generalizing before d ic with
  | nil => rfl
  | cons p ps ih =>
    have hp := hps p (by simp)
    have hrest := fun q hq => hps q (List.mem_cons_of_mem p hq)
    have hnext := lineMode_next h hp
    rw [nestedLines, depthBehind_lineMode h hp, nestedLevel_lineMode h hp, List.map_cons]
    by_cases hnil : trim p = []
    · -- a blank line has no braces, and leaves a comment open
      have hkeep : (BraceCount.ofText ic []).mode.isComment = ic := Mode.isComment_lineStart ic
      rw [hnil, hkeep] at hnext
      rw [if_pos hnil, hnil, List.filter_cons_of_neg (by simp)]
      exact ih hnext hrest
    · rw [if_neg hnil, List.filter_cons_of_pos (by simp [hnil]), indentLines]
      exact congrArg _ (ih hnext hrest)

/-! ## String literals that a scan carries on -/

/-- What a scan takes a text to leave open. -/
def scanMode (scope t : Text) : Mode := (Scan.read scope t).mode

/-- No line feed of a text stands in what a scan takes for a string literal. -/
def StringsStayInLines (scope t : Text) : Prop :=
  ∀ u v, t = u ++ '\n' :: v → (scanMode scope u).isString = false

/-- Whether all string literals stay in their lines can be computed, at the line feeds of the text.
-/
instance (scope t : Text) : Decidable (StringsStayInLines scope t) :=
  decidable_of_iff
    (∀ u ∈ t.inits, (t.drop u.length).head? = some '\n' → (scanMode scope u).isString = false) <| by
    constructor
    · rintro h u v rfl
      exact h u ((List.mem_inits _ _).mpr (List.prefix_append _ _)) (by simp)
    · intro h u hu hhead
      obtain ⟨w, rfl⟩ := (List.mem_inits _ _).mp hu
      rw [List.drop_left] at hhead
      obtain ⟨v, rfl⟩ := List.head?_eq_some_iff.mp hhead
      exact h u v rfl

/-- The readings agree where string literals stay in their lines. -/
theorem lineMode_eq_scanMode (h : StringsStayInLines scope t) (hs : s <+: t) :
    lineMode s = scanMode scope s := by
  induction s using List.reverseRecOn with
  | nil => rfl
  | append_singleton s c ih =>
    have hbefore := ih ((List.prefix_append s [c]).trans hs)
    obtain ⟨v, rfl⟩ := hs
    have hstring : ¬ (c = '\n' ∧ (lineMode s).isString = true) := by
      rintro ⟨rfl, hstring⟩
      rw [hbefore, h s v (by simp)] at hstring
      simp at hstring
    rw [lineMode_concat, Mode.nextInLine, if_neg hstring, hbefore, scanMode, scanMode,
      Scan.mode_read, Scan.mode_read, Mode.after_append]
    rfl

/-- The lines of an indented stylesheet are indented by the nesting of its blocks, each string
literal ending with its line. As far as string literals do end with their lines, that is the
nesting that a scan finds. -/
theorem lines_formatBlock_nested (scope css : Text) :
    lines (formatBlock css) = nestedLines lineMode [] 0 (pieces css) ∧
      (StringsStayInLines scope css →
        lines (formatBlock css) = nestedLines (scanMode scope) [] 0 (pieces css)) ∧
        ∀ ps qs, pieces css = ps ++ qs → StringsStayInLines scope (['\n'].intercalate ps) →
          nestedLines (scanMode scope) [] 0 ps <+: lines (formatBlock css) := by
  have hlines : lines (formatBlock css) = nestedLines lineMode [] 0 (pieces css) := by
    rw [lines_formatBlock, inkedLines_eq]
    exact indentLines_eq_nestedLines rfl fun p => not_mem_of_mem_pieces
  have hagree {ps : List Text} (h : StringsStayInLines scope (['\n'].intercalate ps)) :
      nestedLines lineMode [] 0 ps = nestedLines (scanMode scope) [] 0 ps :=
    nestedLines_congr fun s hs => lineMode_eq_scanMode h hs
  refine ⟨hlines, ?_, ?_⟩
  · intro h
    rw [hlines, hagree]
    rwa [intercalate_pieces]
  · intro ps qs hcss h
    rw [hlines, hcss, ← hagree h]
    exact nestedLines_isPrefix lineMode [] 0 ps qs

/-- A comment over two lines with a brace in each, a string literal with braces, and a string
literal over two lines. -/
def brokenString : Text :=
  ".a \x7b /* \x7b\n\x7d */ b: '\x7d\x7b';\n\x7d\n.c \x7b\nd: \"x\\\n\x7d\";\n\x7d"

/-- The lines in front of the line feed in the string literal. -/
def wholeLines : List Text :=
  [".a \x7b /* \x7b", "\x7d */ b: '\x7d\x7b';", "\x7d", ".c \x7b", "d: \"x\\"]

/-- A string literal that goes on behind a line feed: the lines in front of it are laid out by the
law of nesting, and so is a whole sheet that has none. -/
theorem lines_formatBlock_nested_brokenString :
    pieces brokenString = wholeLines ++ ["\x7d\";".toList, "\x7d".toList] ∧
      StringsStayInLines ".ns" (['\n'].intercalate wholeLines) ∧
        nestedLines (scanMode ".ns") [] 0 wholeLines <+: lines (formatBlock brokenString) ∧
          StringsStayInLines ".ns" ".c \x7b\n/* \x7b\n*/ \x7d" ∧
            lines (formatBlock ".c \x7b\n/* \x7b\n*/ \x7d") =
              nestedLines (scanMode ".ns") [] 0 (pieces ".c \x7b\n/* \x7b\n*/ \x7d") := by
  have hpieces : pieces brokenString = wholeLines ++ ["\x7d\";".toList, "\x7d".toList] := by
    decide +kernel
  have hwhole : StringsStayInLines ".ns" (['\n'].intercalate wholeLines) := by decide +kernel
  have hall : StringsStayInLines ".ns" ".c \x7b\n/* \x7b\n*/ \x7d" := by decide +kernel
  exact ⟨hpieces, hwhole, (lines_formatBlock_nested ".ns" brokenString).2.2 _ _ hpieces hwhole,
    hall, (lines_formatBlock_nested ".ns" _).2.1 hall⟩

/-- A line that starts in a string literal is indented as if it were code. -/
theorem exists_line_misplaced : ∃ css,
    lines (formatBlock css) ≠ nestedLines (scanMode ".ns") [] 0 (pieces css) :=
  ⟨".a \x7b\nb: \"x\\\n\x7d\";\n\x7d", by decide +kernel⟩

end StyleSnippet.Css
