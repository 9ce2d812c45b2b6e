import StyleSnippet.Proofs.Yaml.Untabbed

/-!
# How written YAML ends

A written document ends in a line end. Trimming its end and putting the line end back changes it
only if a string is written last, in a style that shows the white space at its end.
-/

set_option autoImplicit false

namespace StyleSnippet.Yaml

open Text

variable {t : Text} {c : Char}

/-! ## What is written last -/

/-- Whether a string is written with no white space at its end but one line end. In quotes every
string is. -/
def KeepsEnd (t : Text) : Prop :=
  match Style.ofString t with
  | .plain => trimEnd t = t
  | .literal => trimEnd t = t ∨ trimEnd t ≠ [] ∧ t = trimEnd t ++ ['\n']
  | .singleQuoted | .doubleQuoted => True

namespace Value

mutual

/-- The string that is written last of a value, if a string is. -/
def lastString? : Value → Option Text
  | .string s => some s
  | .list items => lastStringOfItems? items
  | .map entries => lastStringOfEntries? entries
  | .tagged _ v => lastString? v
  | .null | .bool _ | .number _ => none

/-- The string that is written last of some items. -/
def lastStringOfItems? : List Value → Option Text
  | [] => none
  | [v] => lastString? v
  | _ :: rest => lastStringOfItems? rest

/-- The string that is written last of some entries. -/
def lastStringOfEntries? : List (Value × Value) → Option Text
  | [] => none
  | [(_, v)] => lastString? v
  | _ :: rest => lastStringOfEntries? rest

end

end Value

/-! ## Pens -/

/-- What is not white space does not end a line. -/
theorem not_isBreak_of_ink (h : isBlank c = false) : isBreak c = false := by
  rw [← Bool.not_eq_true] at h ⊢
  intro hbreak
  simp only [isBreak, Bool.or_eq_true, decide_eq_true_eq] at hbreak
  apply h
  rcases hbreak with (((rfl | rfl) | rfl) | rfl) | rfl <;> decide

/-- A text that is not empty and does not end in white space, by its last character. -/
theorem exists_reverse_eq_cons (hne : t ≠ []) (hlast : ∀ c ∈ t.getLast?, isBlank c = false) :
    ∃ c r, t.reverse = c :: r ∧ isBlank c = false := by
  obtain ⟨c, r, hr⟩ := List.exists_cons_of_ne_nil (List.reverse_ne_nil_iff.mpr hne)
  refine ⟨c, r, hr, hlast c ?_⟩
  rw [← List.head?_reverse, hr]
  rfl

namespace Pen

variable {p : Pen}

/-- Whether the finished text would end in one line end, and no other white space in front of
it. -/
def Settled (p : Pen) : Prop :=
  trimEnd (p.indent 0).written.reverse ++ ['\n'] = (p.indent 0).written.reverse

/-- A text whose last line ends in a character that is not white space is settled. -/
theorem settled_of_written {r : Text} (h : (p.indent 0).written = '\n' :: c :: r)
    (hc : isBlank c = false) : p.Settled := by
  have hfeed : isBlank '\n' = true := by decide
  rw [Settled, h, trimEnd, List.reverse_reverse, List.dropWhile_cons_of_pos hfeed,
    List.dropWhile_cons_of_neg (by simp [hc]), List.reverse_cons (a := '\n')]

/-- A pen that has just put something on the line. -/
theorem settled_of_ink {r : Text} (hfresh : p.fresh = false) (hwritten : p.written = c :: r)
    (hc : isBlank c = false) : p.Settled := by
  refine settled_of_written (c := c) (r := r) ?_ hc
  simp [indent, hfresh, endLine, puts, hwritten]

/-- A pen that has just ended a line with something on it. -/
theorem settled_of_feed {r : Text} (hspaced : p.spaced = true) (hfresh : p.fresh = true)
    (hcolumn : p.column = 0) (hwritten : p.written = '\n' :: c :: r) (hc : isBlank c = false) :
    p.Settled := by
  refine settled_of_written (c := c) (r := r) ?_ hc
  simp [indent, hspaced, hfresh, hcolumn, puts, hwritten]

/-- A mark that does not end in white space settles the text. -/
theorem settled_mark (hne : t ≠ []) (hlast : ∀ c ∈ t.getLast?, isBlank c = false)
    (spaceBefore : Bool) : (p.mark t spaceBefore false).Settled := by
  obtain ⟨c, r, hr, hc⟩ := exists_reverse_eq_cons hne hlast
  have hfresh : (p.mark t spaceBefore false).fresh = false := by
    simp [mark]
  have hwritten : (p.mark t spaceBefore false).written =
      c :: (r ++ (if spaceBefore && !p.spaced then p.put ' ' else p).written) := by
    simp [mark, written_puts, hr]
  exact settled_of_ink hfresh hwritten hc

/-- A mark without white space settles the text. -/
theorem settled_mark_solid (hne : t ≠ []) (ht : Solid t) (spaceBefore : Bool) :
    (p.mark t spaceBefore false).Settled :=
  settled_mark hne (fun c hc => ht c (List.mem_of_mem_getLast? hc)) spaceBefore

/-! ### Strings -/

/-- Text that is put does not change what is remembered of spaces. -/
@[simp] theorem spaced_puts (t : Text) : (p.puts t).spaced = p.spaced := by
  induction t generalizing p with
  | nil => rfl
  | cons c t ih =>
    rw [puts_cons, ih]
    rfl

/-- Text over several lines leaves it open whether a space is wanted. -/
theorem spaced_foldl_runOn {escape : Char → Text} {column : Nat} (h : p.spaced = true)
    (ended : Bool) : (t.foldl (runOn escape column) (p, ended)).1.spaced = true := by
  induction t generalizing p ended with
  | nil => exact h
  | cons c t ih =>
    rw [List.foldl_cons, runOn]
    split
    · exact ih (p := { p.endLine c with fresh := true }) h _
    · apply ih
      rw [spaced_puts]
      split
      · rfl
      · exact h

/-- A character that is not white space is what a line of a block ends in. -/
theorem exists_runOn_ink (column : Nat) (s : Pen × Bool) (hc : isBlank c = false) :
    ∃ r, (runOn List.singleton column s c).1.written = c :: r ∧
      (runOn List.singleton column s c).1.fresh = false := by
  rw [runOn, if_neg (by simp [not_isBreak_of_ink hc])]
  exact ⟨(if s.2 then s.1.indent column else s.1).written, rfl, rfl⟩

/-- Text over several lines ends as it should if it ends in ink, or in a line end behind ink. -/
theorem settled_foldl_runOn (column : Nat) (h : p.spaced = true) (hc : isBlank c = false)
    (ended : Bool) :
    ((t ++ [c]).foldl (runOn List.singleton column) (p, ended)).1.Settled ∧
      ((t ++ [c] ++ ['\n']).foldl (runOn List.singleton column) (p, ended)).1.Settled := by
  obtain ⟨r, hwritten, hfresh⟩ := exists_runOn_ink column
    (t.foldl (runOn List.singleton column) (p, ended)) hc
  have hspaced : ((t ++ [c]).foldl (runOn List.singleton column) (p, ended)).1.spaced = true :=
    spaced_foldl_runOn h ended
  simp only [List.foldl_append, List.foldl_cons, List.foldl_nil] at hspaced ⊢
  refine ⟨settled_of_ink hfresh hwritten hc, ?_⟩
  have hbreak : isBreak '\n' = true := by decide
  rw [runOn, if_pos hbreak]
  exact settled_of_feed (r := r) hspaced rfl rfl (congrArg _ hwritten) hc

/-- A literal block settles the text, if one line end at most stands behind its last line. -/
theorem settled_literal (column : Nat)
    (h : trimEnd t = t ∧ t ≠ [] ∨ trimEnd t ≠ [] ∧ t = trimEnd t ++ ['\n']) :
    (p.literal column t).Settled := by
  have hends (u : Text) (hu : trimEnd u ≠ []) :
      ∃ s c, trimEnd u = s ++ [c] ∧ isBlank c = false := by
    refine ⟨_, _, (List.dropLast_append_getLast hu).symm, ?_⟩
    exact last_trimEnd u _ (List.getLast?_eq_some_getLast hu)
  rw [literal]
  rcases h with ⟨htrim, hne⟩ | ⟨hne, hfeed⟩
  · obtain ⟨s, c, hs, hc⟩ := hends t (by rwa [htrim])
    rw [htrim] at hs
    rw [hs]
    exact (settled_foldl_runOn column rfl hc true).1
  · obtain ⟨s, c, hs, hc⟩ := hends t hne
    rw [hfeed, hs]
    exact (settled_foldl_runOn column rfl hc true).2

/-- A string that keeps its end is written so that trimming does no harm. -/
theorem settled_string (h : KeepsEnd t) (column : Nat) : (p.string column t).Settled := by
  rw [KeepsEnd] at h
  rw [Pen.string]
  cases hstyle : Style.ofString t with
  | plain =>
    rw [hstyle] at h
    have hne : t ≠ [] := by
      rintro rfl
      exact absurd hstyle (by decide)
    exact settled_mark hne (by rw [← h]; exact last_trimEnd t) true
  | singleQuoted =>
    exact settled_mark_solid (t := "'".toList) (by decide) (by decide) false
  | doubleQuoted =>
    exact settled_mark_solid (t := "\"".toList) (by decide) (by decide) false
  | literal =>
    rw [hstyle] at h
    have hne : t ≠ [] := by
      rintro rfl
      exact absurd hstyle (by decide)
    exact settled_literal column (h.imp_left fun htrim => ⟨htrim, hne⟩)

end Pen

/-! ## Values -/

/-- A number is laid out as some text. -/
theorem render_ne_nil (l : Binary64.Layout) (x : Binary64.Digits) : l.render x ≠ [] := by
  simp only [Binary64.Layout.render]
  split
  · split <;> simp
  · split
    · simp
    · split <;> simp

/-- A number is written as some text. -/
theorem number_ne_nil (n : Number) : n.text ≠ [] := by
  cases n with
  | int i =>
    have hdigits : Text.ofNat i.natAbs ≠ [] := Nat.toDigits_ne_nil
    rw [Number.text]
    split <;> simp [hdigits]
  | float x =>
    cases x with
    | nan => decide
    | infinite negative => cases negative <;> decide
    | finite negative m e =>
      have hbody : (if m = 0 then "0.0".toList
          else floatLayout.render (Binary64.Interval.ofFinite m e).shortest) ≠ [] := by
        split
        · decide
        · exact render_ne_nil _ _
      rw [Number.text, Binary64.text]
      split
      · simp
      · exact hbody

namespace Value

open Pen

mutual

/-- A value settles the text, if the string that is written last keeps its end. -/
theorem settled_putOn (l : Place) (p : Pen) :
    ∀ v : Value, (∀ s ∈ v.lastString?, KeepsEnd s) → (putOn l p v).Settled
  | .null, _ => settled_mark_solid (by decide) (by decide) true
  | .bool b, _ => settled_mark_solid (by cases b <;> decide) (by cases b <;> decide) true
  | .number n, _ => settled_mark_solid (number_ne_nil n) (solid_number n) true
  | .string s, h => settled_string (h s rfl) _
  | .tagged t v, h => settled_putOn { l with tag := some t } p v h
  | .list [], _ => settled_mark_solid (by decide) (by decide) true
  | .list (item :: items), h => settled_putItems _ _ (item :: items) (by simp) h
  | .map [], _ => settled_mark_solid (by decide) (by decide) true
  | .map (e :: es), h => settled_putEntries _ _ (e :: es) (by simp) h

/-- Items settle the text, if the string that is written last keeps its end. -/
theorem settled_putItems (column : Nat) (p : Pen) :
    ∀ items : List Value, items ≠ [] → (∀ s ∈ lastStringOfItems? items, KeepsEnd s) →
      (putItems column p items).Settled
  | [], hne, _ => absurd rfl hne
  | [item], _, h => settled_putOn _ _ item h
  | _ :: item :: items, _, h => settled_putItems column _ (item :: items) (by simp) h

/-- Entries settle the text, if the string that is written last keeps its end. -/
theorem settled_putEntries (column : Nat) (p : Pen) :
    ∀ es : List (Value × Value), es ≠ [] → (∀ s ∈ lastStringOfEntries? es, KeepsEnd s) →
      (putEntries column p es).Settled
  | [], hne, _ => absurd rfl hne
  | [(_, value)], _, h => settled_putOn _ _ value h
  | (_, _) :: e :: es, _, h => settled_putEntries column _ (e :: es) (by simp) h

end

end Value

/-- Trimming the end of a written document and putting a line end there leaves it as it is, unless
a string is written last that shows white space at its end. -/
theorem trimEnd_of_write? {v : Value} {yaml : Text} (h : write? v = some yaml)
    (hlast : ∀ s ∈ v.lastString?, KeepsEnd s) : trimEnd yaml ++ ['\n'] = yaml := by
  rw [write?] at h
  split at h
  · rw [Option.some.injEq] at h
    rw [← h]
    exact Value.settled_putOn {} {} v hlast
  · simp at h

end StyleSnippet.Yaml
