import Mathlib.Tactic.SplitIfs
import StyleSnippet.Document.Read
import StyleSnippet.Proofs.Text.Trim
import StyleSnippet.Yaml.Writer

/-!
# Written YAML holds no tab

Tabs of a settings block are replaced before it is read. That changes nothing of YAML that has been
written: a tab in a string is written as an escape, and one in a tag as its byte.
-/

set_option autoImplicit false

namespace StyleSnippet.Yaml

open Text

variable {t : Text} {c : Char}

/-! ## Pieces of text -/

/-- The digits of a number are written as the characters of digits. -/
theorem exists_of_mem_toDigits {n : Nat} (h : c ∈ Nat.toDigits 16 n) :
    ∃ k < 16, c = k.digitChar := by
  induction n using Nat.strongRecOn with
  | ind n ih =>
    rw [Nat.toDigits_eq_if (by decide)] at h
    split at h
    · next hlt =>
      rw [List.mem_singleton] at h
      exact ⟨n, hlt, h⟩
    · next hge =>
      rcases List.mem_append.mp h with h | h
      · exact ih (n / 16) (by omega) h
      · rw [List.mem_singleton] at h
        exact ⟨n % 16, Nat.mod_lt n (by decide), h⟩

/-- No tab stands in a hexadecimal number. -/
theorem tab_not_mem_hex (count n : Nat) : '\t' ∉ Pen.hex count n := by
  simp only [Pen.hex, List.mem_append, List.mem_replicate, List.mem_map, not_or, not_exists,
    not_and]
  refine ⟨fun _ => by decide, ?_⟩
  intro c hc
  obtain ⟨k, hk, rfl⟩ := exists_of_mem_toDigits hc
  have hdigits : ∀ k < 16, ¬ k.digitChar.toUpper = '\t' := by decide
  exact hdigits k hk

/-- No tab stands in printable text. -/
theorem tab_not_mem_of_printable (h : t.all isPrintable = true) : '\t' ∉ t := by
  intro ht
  exact absurd (List.all_eq_true.mp h '\t' ht) (by decide)

/-- No tab stands in what a character is written as between double quotes. -/
theorem tab_not_mem_escaped (c : Char) : '\t' ∉ Pen.escaped c := by
  rw [Pen.escaped]
  split
  · next h =>
    rw [List.mem_singleton]
    rintro rfl
    exact absurd h (by decide)
  · split
    · next letter hletter =>
      obtain ⟨l, r, hsplit, -⟩ := List.lookup_eq_some_iff.mp hletter
      have hmem : letter ∈ Pen.letterEscapes.map (·.2) := by simp [hsplit]
      have hne : ∀ x ∈ Pen.letterEscapes.map (·.2), '\t' ∉ ['\\', x] := by decide
      exact hne letter hmem
    · have hcons {x : Char} {r : Text} (hx : x ≠ '\t') (hr : '\t' ∉ r) :
          '\t' ∉ '\\' :: x :: r := by
        simp [hr, Ne.symm hx]
      simp only
      split_ifs
      · exact hcons (by decide) (tab_not_mem_hex _ _)
      · exact hcons (by decide) (tab_not_mem_hex _ _)
      · exact hcons (by decide) (tab_not_mem_hex _ _)

/-! ### Numbers -/

/-- No white space stands in a natural number. -/
theorem solid_ofNat (n : Nat) : Solid (Text.ofNat n) := by
  intro c h
  have hdigit : c.isDigit = true := Nat.isDigit_of_mem_toDigits (by decide) (by decide) h
  rw [← Bool.not_eq_true]
  intro hblank
  have hother := forall_blank (p := fun c => !c.isDigit) (by decide) hblank
  simp [hdigit] at hother

/-- No white space stands in a number that is laid out from digits. -/
theorem solid_render (l : Binary64.Layout) {x : Binary64.Digits} (h : Solid x.digits) :
    Solid (l.render x) := by
  have htake (k : Nat) : Solid (x.digits.take k) := fun c hc => h c (List.mem_of_mem_take hc)
  have hdrop (k : Nat) : Solid (x.digits.drop k) := fun c hc => h c (List.mem_of_mem_drop hc)
  have hzeros (k : Nat) : Solid (List.replicate k '0') := by
    intro c hc
    rw [List.eq_of_mem_replicate hc]
    decide
  have hsign (e : Int) : Solid (if e < 0 then ['-'] else []) := by
    split <;> decide
  have hexponent (e : Int) : Solid ('e' :: ((if e < 0 then ['-'] else []) ++
      Text.ofNat e.natAbs)) := by
    simp only [solid_cons, solid_append]
    exact ⟨by decide, hsign e, solid_ofNat _⟩
  simp only [Binary64.Layout.render]
  split
  · split
    · simp only [solid_cons, solid_append]
      exact ⟨⟨h, hzeros _⟩, by decide, by decide, solid_nil⟩
    · simp only [solid_cons, solid_append]
      exact ⟨htake _, by decide, hdrop _⟩
  · split
    · simp only [solid_cons, solid_append]
      exact ⟨⟨⟨by decide, by decide, solid_nil⟩, hzeros _⟩, h⟩
    · split
      · exact hexponent _
      · next d hd =>
        rw [hd, solid_cons] at h
        exact solid_cons.mpr ⟨h.1, hexponent _⟩
      · next d ds _ hd =>
        rw [hd, solid_cons] at h
        exact solid_cons.mpr ⟨h.1, solid_cons.mpr ⟨by decide, solid_append.mpr ⟨h.2, hexponent _⟩⟩⟩

/-- The shortest digits of a number are digits. -/
theorem solid_shortest (i : Binary64.Interval) : Solid i.shortest.digits := by
  simp only [Binary64.Interval.shortest]
  split
  · decide
  · intro c h
    rw [List.mem_reverse] at h
    exact solid_ofNat _ c (List.mem_reverse.mp ((List.dropWhile_sublist _).subset h))

/-- No white space stands in a float. -/
theorem solid_float (x : Binary64) : Solid x.text := by
  cases x with
  | nan => decide
  | infinite negative => cases negative <;> decide
  | finite negative m e =>
    have hbody : Solid (if m = 0 then "0.0".toList
        else floatLayout.render (Binary64.Interval.ofFinite m e).shortest) := by
      split
      · decide
      · exact solid_render _ (solid_shortest _)
    rw [Binary64.text]
    split
    · exact solid_cons.mpr ⟨by decide, hbody⟩
    · exact hbody

/-- No white space stands in a number. -/
theorem solid_number (n : Number) : Solid n.text := by
  cases n with
  | int i =>
    rw [Number.text]
    split
    · exact solid_cons.mpr ⟨by decide, solid_ofNat _⟩
    · exact solid_ofNat _
  | float x => exact solid_float x

/-! ### Tags -/

/-- No tab stands in the name of a tag. -/
theorem tab_not_mem_tagContent (t : Text) : '\t' ∉ tagContent t := by
  simp only [tagContent, List.mem_flatMap, not_exists, not_and]
  intro c _
  split
  · next h =>
    rw [List.mem_singleton]
    rintro rfl
    exact absurd h (by decide)
  · simp only [percentEscape, List.mem_flatMap, not_exists, not_and]
    intro b _
    simp [tab_not_mem_hex]

/-- No tab stands in a tag. -/
theorem tab_not_mem_tagText (t : Text) : '\t' ∉ tagText t := by
  rw [tagText]
  split <;> simp [tab_not_mem_tagContent]

/-! ## The pen -/

namespace Pen

/-- No tab has been written. -/
def Untabbed (p : Pen) : Prop := '\t' ∉ p.written

variable {p : Pen}

/-- A text is written behind what is written already. -/
theorem written_puts (p : Pen) (t : Text) : (p.puts t).written = t.reverse ++ p.written := by
  induction t generalizing p with
  | nil => rfl
  | cons c t ih =>
    rw [puts_cons, ih]
    simp [put]

/-- Text without a tab adds none. -/
theorem Untabbed.puts (h : p.Untabbed) (ht : '\t' ∉ t) : (p.puts t).Untabbed := by
  rw [Untabbed, written_puts, List.mem_append, List.mem_reverse, not_or]
  exact ⟨ht, h⟩

/-- A character other than a tab adds none. -/
theorem Untabbed.put (h : p.Untabbed) (hc : c ≠ '\t') : (p.put c).Untabbed :=
  List.not_mem_cons_of_ne_of_not_mem (Ne.symm hc) h

/-- The end of a line adds no tab. -/
theorem Untabbed.endLine (h : p.Untabbed) (hc : c ≠ '\t') : (p.endLine c).Untabbed :=
  List.not_mem_cons_of_ne_of_not_mem (Ne.symm hc) h

/-- An indentation adds no tab. -/
theorem Untabbed.indent (h : p.Untabbed) (column : Nat) : (p.indent column).Untabbed := by
  have hspaces (k : Nat) : '\t' ∉ List.replicate k ' ' := by
    rw [List.mem_replicate]
    exact fun hm => absurd hm.2 (by decide)
  rw [Pen.indent]
  split
  · exact (h.endLine (by decide)).puts (hspaces _)
  · exact h.puts (hspaces _)

/-- A mark without a tab adds none. -/
theorem Untabbed.mark (h : p.Untabbed) (ht : '\t' ∉ t) (spaceBefore startsLevel : Bool) :
    (p.mark t spaceBefore startsLevel).Untabbed := by
  rw [Pen.mark]
  split
  · exact (h.put (by decide)).puts ht
  · exact h.puts ht

/-- A plain scalar without a tab adds none. -/
theorem Untabbed.plain (h : p.Untabbed) (ht : '\t' ∉ t) : (p.plain t).Untabbed :=
  h.mark ht true false

/-- Text over several lines brings no tab if its characters are written without one. -/
theorem Untabbed.foldl_runOn {escape : Char → Text} (hescape : ∀ c ∈ t, '\t' ∉ escape c)
    (ht : '\t' ∉ t) (column : Nat) (h : p.Untabbed) (ended : Bool) :
    (t.foldl (runOn escape column) (p, ended)).1.Untabbed := by
  induction t generalizing p ended with
  | nil => exact h
  | cons c t ih =>
    rw [List.mem_cons, not_or] at ht
    have hrest (q : Pen) (hq : q.Untabbed) (ended : Bool) :=
      ih (fun d hd => hescape d (List.mem_cons_of_mem c hd)) ht.2 hq ended
    rw [List.foldl_cons, runOn]
    split
    · refine hrest _ ?_ _
      exact h.endLine (Ne.symm ht.1)
    · have hputs {q : Pen} (hq : q.Untabbed) : (q.puts (escape c)).Untabbed :=
        hq.puts (hescape c (by simp))
      refine hrest _ ?_ _
      split
      · exact hputs (h.indent column)
      · exact hputs h

/-- A text between single quotes adds no tab if it holds none. -/
theorem Untabbed.singleQuoted (h : p.Untabbed) (ht : '\t' ∉ t) (column : Nat) :
    (p.singleQuoted column t).Untabbed := by
  have hescape : ∀ c ∈ t, '\t' ∉ quoteTwice c := by
    intro c hc
    rw [quoteTwice]
    split
    · decide
    · rw [List.mem_singleton]
      rintro rfl
      exact ht hc
  have hquote := h.mark (t := "'".toList) (by decide) true false
  have htext := hquote.foldl_runOn hescape ht column false
  rw [Pen.singleQuoted]
  simp only
  split
  · exact (htext.indent column).mark (by decide) false false
  · exact htext.mark (by decide) false false

/-- A text between double quotes adds no tab, even if it holds one. -/
theorem Untabbed.doubleQuoted (h : p.Untabbed) (t : Text) : (p.doubleQuoted t).Untabbed := by
  have ht : '\t' ∉ t.flatMap escaped := by
    simp [tab_not_mem_escaped]
  exact ((h.mark (by decide) true false).puts ht).mark (by decide) false false

/-- What stands behind the bar of a literal block is one of three characters. -/
theorem mem_literalHint (h : c ∈ literalHint t) : c = '2' ∨ c = '+' ∨ c = '-' := by
  simp only [literalHint, List.mem_append] at h
  rcases h with h | h
  · split at h
    · split at h <;> simp_all
    · simp at h
  · split at h
    · simp_all
    · split at h <;> simp_all
    · split at h
      · simp_all
      · split at h <;> simp_all

/-- A literal block adds no tab if its text holds none. -/
theorem Untabbed.literal (h : p.Untabbed) (ht : '\t' ∉ t) (column : Nat) :
    (p.literal column t).Untabbed := by
  have hhint : '\t' ∉ literalHint t := by
    intro hm
    rcases mem_literalHint hm with hc | hc | hc <;> exact absurd hc (by decide)
  have hescape : ∀ c ∈ t, '\t' ∉ List.singleton c := by
    intro c hc hm
    rw [List.singleton, List.mem_singleton] at hm
    exact ht (hm ▸ hc)
  have hhead := ((h.mark (t := "|".toList) (by decide) true false).mark hhint false
    false).endLine (c := '\n') (by decide)
  refine Untabbed.foldl_runOn hescape ht column ?_ true
  exact hhead

/-- Only in double quotes can a text be written that does not consist of characters that are
written as they are. -/
theorem all_isPrintable_of_ofString (h : Style.ofString t ≠ .doubleQuoted) :
    t.all isPrintable = true := by
  rw [Style.ofString] at h
  split_ifs at h with hfeed hliteral hplain hsingle
  · simp only [Style.allowsLiteral, Bool.and_eq_true] at hliteral
    exact hliteral.1.1
  · exact absurd rfl h
  · simp only [Style.allowsPlain, Bool.and_eq_true] at hplain
    rw [List.all_eq_true]
    intro c hc
    have hone := List.all_eq_true.mp hplain.2.2.2 c hc
    rw [Bool.and_eq_true] at hone
    exact hone.1
  · simp only [Style.allowsSingleQuoted, Bool.and_eq_true] at hsingle
    exact hsingle.1.1
  · exact absurd rfl h

/-- A string is written without tabs, in whatever style. -/
theorem Untabbed.string (h : p.Untabbed) (column : Nat) (t : Text) :
    (p.string column t).Untabbed := by
  have hall (hstyle : Style.ofString t ≠ .doubleQuoted) : '\t' ∉ t :=
    tab_not_mem_of_printable (all_isPrintable_of_ofString hstyle)
  rw [Pen.string]
  cases hstyle : Style.ofString t with
  | plain => exact h.plain (hall (by simp [hstyle]))
  | singleQuoted => exact h.singleQuoted (hall (by simp [hstyle])) column
  | doubleQuoted => exact h.doubleQuoted t
  | literal => exact h.literal (hall (by simp [hstyle])) column

/-- A tag adds no tab. -/
theorem Untabbed.tag (h : p.Untabbed) (tag : Option Text) : (p.tag tag).Untabbed := by
  cases tag with
  | none => exact h
  | some t => exact h.plain (tab_not_mem_tagText t)

end Pen

/-! ## Values -/

namespace Value

open Pen

mutual

/-- A value adds no tab. -/
theorem untabbed_putOn {p : Pen} (h : p.Untabbed) (l : Place) : ∀ v : Value, (putOn l p v).Untabbed
  | .null => (h.tag _).plain (by decide)
  | .bool b => (h.tag _).plain (by cases b <;> decide)
  | .number n => (h.tag _).plain ((solid_number n).tab_not_mem)
  | .string s => (h.tag _).string _ s
  | .tagged t v => untabbed_putOn h { l with tag := some t } v
  | .list [] => (h.tag _).mark (by decide) true false
  | .list (item :: items) => untabbed_putItems (h.tag _) _ (item :: items)
  | .map [] => (h.tag _).mark (by decide) true false
  | .map (e :: es) => untabbed_putEntries (h.tag _) _ (e :: es)

/-- Items add no tab. -/
theorem untabbed_putItems {p : Pen} (h : p.Untabbed) (column : Nat) :
    ∀ items : List Value, (putItems column p items).Untabbed
  | [] => h
  | item :: items =>
    have hdash := (h.indent column).mark (t := "-".toList) (by decide) true true
    untabbed_putItems (untabbed_putOn hdash _ item) column items

/-- Entries add no tab. -/
theorem untabbed_putEntries {p : Pen} (h : p.Untabbed) (column : Nat) :
    ∀ entries : List (Value × Value), (putEntries column p entries).Untabbed
  | [] => h
  | (key, value) :: rest => by
    have hkey := h.indent column
    let inside : Place := { parent := some column, inMap := true }
    have hcolon : (if isSimpleKey none key then
          (putOn inside (p.indent column) key).mark ":" false false
        else ((putOn inside ((p.indent column).mark "?" true true) key).indent column).mark
          ":" true true).Untabbed := by
      split
      · exact (untabbed_putOn hkey _ key).mark (by decide) false false
      · have hquestion := hkey.mark (t := "?".toList) (by decide) true true
        exact ((untabbed_putOn hquestion _ key).indent column).mark (by decide) true true
    exact untabbed_putEntries (untabbed_putOn hcolon _ value) column rest

end

end Value

/-- A written document holds no tab. -/
theorem tab_not_mem_of_write? {v : Value} {yaml : Text} (h : write? v = some yaml) :
    '\t' ∉ yaml := by
  rw [write?] at h
  split at h
  · rw [Option.some.injEq] at h
    have hstart : Pen.Untabbed {} := by simp [Pen.Untabbed]
    have hdone := (Value.untabbed_putOn hstart {} v).indent 0
    rw [← h, List.mem_reverse]
    exact hdone
  · simp at h

end StyleSnippet.Yaml

namespace StyleSnippet

/-- Replacing tabs leaves a text alone that holds none. -/
theorem expandTabs_eq_self {t : Text} (h : '\t' ∉ t) : expandTabs t = t := by
  induction t with
  | nil => rfl
  | cons c t ih =>
    rw [List.mem_cons, not_or] at h
    have hcons : expandTabs (c :: t) = (if c = '\t' then tabReplacement else [c]) ++ expandTabs t :=
      rfl
    rw [hcons, if_neg (Ne.symm h.1), ih h.2]
    rfl

end StyleSnippet
