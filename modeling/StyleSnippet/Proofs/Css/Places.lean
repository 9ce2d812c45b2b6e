import StyleSnippet.Proofs.Css.Reading
import StyleSnippet.Proofs.Text.Woven

/-!
# Where the class is put in

Confining a stylesheet puts in the scope class and a space, and does nothing else. The places where
it may do so are told here by the stylesheet alone: they lie in the prelude of a block that is
confined, each directly in front of the first character of a selector that is neither white space
nor in a complete comment.

The class is any text. Nothing depends on what it is made of, since what is put in is not read
again.
-/

set_option autoImplicit false

namespace StyleSnippet.Css

open Text

variable {scope before prelude u v : Text} {b : BlockRecord} {k i : Nat}

/-! ## A list around one of its selectors -/

/-- The text of a selector list before the selector with the given number. -/
def listFront (t : Text) (i : Nat) : Text := ((splitSelectors t).take i).flatMap (· ++ [','])

/-- Selectors with a comma behind each and a list behind all of them are one list. -/
theorem flatMap_comma_append (l : List Text) {r : List Text} (hr : r ≠ []) :
    l.flatMap (· ++ [',']) ++ [','].intercalate r = [','].intercalate (l ++ r) := by
  induction l with
  | nil => rfl
  | cons s l ih =>
    obtain ⟨q, qs, hq⟩ := List.exists_cons_of_ne_nil (List.append_ne_nil_of_right_ne_nil l hr)
    rw [hq, intercalate_cons] at ih
    rw [List.flatMap_cons, List.append_assoc, ih, List.cons_append, hq, intercalate_cons]
    simp

/-- A selector list, cut around one of its selectors. -/
theorem eq_of_splitSelectors {s t : Text} {l r : List Text} (h : splitSelectors t = l ++ s :: r) :
    t = l.flatMap (· ++ [',']) ++ (s ++ r.flatMap ([','] ++ ·)) := by
  rw [← intercalate_cons, flatMap_comma_append l (by simp), ← h, intercalate_splitSelectors]

/-- The text before a selector and the selector are in the list. -/
theorem listFront_append_isPrefix {s t : Text} (h : (splitSelectors t)[i]? = some s) :
    listFront t i ++ s <+: t := by
  obtain ⟨hi, hs⟩ := List.getElem?_eq_some_iff.mp h
  have hsplit : splitSelectors t =
      (splitSelectors t).take i ++ s :: (splitSelectors t).drop (i + 1) := by
    rw [← hs, List.getElem_cons_drop, List.take_append_drop]
  refine ⟨((splitSelectors t).drop (i + 1)).flatMap ([','] ++ ·), ?_⟩
  conv_rhs => rw [eq_of_splitSelectors hsplit]
  rw [listFront, List.append_assoc]

/-- The selectors of a list before another one, with their commas, leave code behind. -/
theorem after_flatMap_comma (t : Text) : ∀ l r, splitSelectors t = l ++ r → r ≠ [] →
    Mode.after .code (l.flatMap (· ++ [','])) = .code := by
  induction t using splitSelectors_induction with
  | one s _ =>
    intro l r hsplit hr
    obtain ⟨q, qs, rfl⟩ := List.exists_cons_of_ne_nil hr
    cases l with
    | nil => rfl
    | cons p l => simp at hsplit
  | cons s r _ hm _ ih =>
    intro l q hsplit hq
    cases l with
    | nil => rfl
    | cons p l =>
      rw [List.cons_append, List.cons.injEq] at hsplit
      obtain ⟨rfl, hsplit⟩ := hsplit
      rw [List.flatMap_cons, Mode.after_append, Mode.after_append, Mode.after_cons,
        Mode.next_comma hm]
      exact ih l q hsplit hq

/-! ## Places -/

/-- Text that starts with neither white space nor a complete comment. -/
structure Bare (t : Text) : Prop where
  ne_nil : t ≠ []
  head : ∀ c ∈ t.head?, isBlank c = false
  comment : comment? t = none

/-- What follows the lead of a selector is bare, if anything does. -/
theorem bare_cutLead {s : Text} (h : (cutLead s).2 ≠ []) : Bare (cutLead s).2 :=
  ⟨h, head_cutLead s, comment?_cutLead s⟩

/-- The place between two texts, in the stylesheet that they make up, in front of what follows the
lead of selector `i` of the prelude of block `k`, which is confined. -/
structure ClassPlace (scope : Text) (k i : Nat) (u v : Text) : Prop where
  /-- The place lies outside comments and string literals. -/
  code : Mode.after .code u = .code
  /-- A confined block opens behind it, and it lies behind the lead of a selector of the prelude. -/
  selector : ∃ before prelude rest lead body b,
    u ++ v = before ++ prelude ++ '{' :: rest ∧ Opens scope before prelude b ∧
      (scan scope (u ++ v)).blocks[k]? = some b ∧ b.confined = true ∧
        (scan scope (before ++ prelude)).blocks.length = k ∧
          (splitSelectors prelude)[i]? = some (lead ++ body) ∧ Lead lead ∧ Bare body ∧
            u = before ++ listFront prelude i ++ lead

/-- Of two cuts of one text, the one behind has the first character behind the other one. -/
theorem concat_isPrefix {s s' t t' : Text} {c : Char} (h : s ++ c :: t = s' ++ t')
    (hlt : s.length < s'.length) : s ++ [c] <+: s' := by
  have hwhole : s ++ [c] <+: s' ++ t' := ⟨t, by rw [← h]; simp⟩
  apply List.prefix_of_prefix_length_le hwhole (List.prefix_append s' t')
  rw [List.length_append, List.length_singleton]
  omega

/-- Behind a brace that opens a block there is one more record. -/
theorem Opens.length_le (h : Opens scope before prelude b) {t rest rest' : Text}
    (heq : before ++ prelude ++ '{' :: rest = t ++ '{' :: rest')
    (hcount : (scan scope t).blocks.length = (scan scope (before ++ prelude)).blocks.length) :
    t.length ≤ (before ++ prelude).length := by
  by_contra hlt
  obtain ⟨w, rfl⟩ := concat_isPrefix heq (Nat.lt_of_not_le hlt)
  have hmore := (blocks_isPrefix scope (before ++ prelude ++ ['{']) w).length_le
  rw [h.opened, List.length_append, List.length_singleton, hcount] at hmore
  omega

namespace ClassPlace

/-- A place stays one when text is added behind. -/
theorem append (h : ClassPlace scope k i u v) (w : Text) : ClassPlace scope k i u (v ++ w) := by
  obtain ⟨before, prelude, rest, lead, body, b, huv, hopens, hk, hrest⟩ := h.selector
  refine ⟨h.code, before, prelude, rest ++ w, lead, body, b, ?_, hopens, ?_, hrest⟩
  · rw [← List.append_assoc, huv]
    simp
  · obtain ⟨bs, hbs⟩ := blocks_isPrefix scope (u ++ v) w
    rw [← List.append_assoc, ← hbs]
    rwa [List.getElem?_append_left (List.getElem?_eq_some_iff.mp hk).1]

/-- A selector has one place at most. -/
theorem unique {u' v' : Text} (h : ClassPlace scope k i u v) (h' : ClassPlace scope k i u' v')
    (huv : u ++ v = u' ++ v') : u = u' := by
  obtain ⟨before, prelude, rest, lead, body, b, hcss, hopens, -, -, hk, hi, hlead, hbare, rfl⟩ :=
    h.selector
  obtain ⟨before', prelude', rest', lead', body', b', hcss', hopens', -, -, hk', hi', hlead',
    hbare', rfl⟩ := h'.selector
  -- both are in the prelude in front of the same brace
  have heq : before ++ prelude ++ '{' :: rest = before' ++ prelude' ++ '{' :: rest' := by
    rw [← hcss, huv, hcss']
  have hle := hopens.length_le heq (hk'.trans hk.symm)
  have hge := hopens'.length_le heq.symm (hk.trans hk'.symm)
  obtain ⟨htext, -⟩ := List.append_inj heq (by omega)
  have hprelude : prelude = prelude' := by
    rw [← hopens.held, ← hopens'.held, htext]
  rw [hprelude] at htext
  obtain rfl := List.append_cancel_right htext
  -- and behind the lead of the same selector
  rw [hprelude, hi', Option.some.injEq] at hi
  have hcut := hlead.cutLead_append body
  have hcut' := hlead'.cutLead_append body'
  rw [cutLead_eq_self hbare.head hbare.comment, List.append_nil] at hcut
  rw [cutLead_eq_self hbare'.head hbare'.comment, List.append_nil, hi, hcut, Prod.mk.injEq] at hcut'
  rw [hprelude, hcut'.1]

end ClassPlace

/-- Whether the place between two texts is one for the class. -/
def TakesClass (scope u v : Text) : Prop := ∃ k i, ClassPlace scope k i u v

/-! ## Text without places -/

/-- A comment or a string literal behind a text: from its first character to its last one, what is
read is not code. -/
def Literal (a w : Text) : Prop :=
  ∀ x y, w = x ++ y → x ≠ [] → y ≠ [] → Mode.after .code (a ++ x) ≠ .code

/-- Text that is held back until a boundary or the end, and behind which no confined block opens:
declarations, the prelude of an at-rule, a statement, an unfinished tail. -/
structure Plain (scope a w z : Text) : Prop where
  held : (Scan.read scope (a ++ w)).prelude = w
  boundary : ∀ c ∈ z.head?,
    isBoundary (Scan.read scope (a ++ w)).stack (Scan.read scope (a ++ w)).mode c = true
  not_confined : ∀ b, z.head? = some '{' → Opens scope a w b → b.confined = false

/-- A place lies in the prelude of a confined block. -/
theorem ClassPlace.exists_prelude (h : ClassPlace scope k i u v) : ∃ before prelude rest b,
    u ++ v = before ++ prelude ++ '{' :: rest ∧ Opens scope before prelude b ∧
      b.confined = true ∧ before.length ≤ u.length ∧ u.length < (before ++ prelude).length := by
  obtain ⟨before, prelude, rest, lead, body, b, hcss, hopens, -, hb, -, hi, -, hbare, rfl⟩ :=
    h.selector
  have hbody := List.length_pos_iff.mpr hbare.ne_nil
  have hle := (listFront_append_isPrefix hi).length_le
  refine ⟨before, prelude, rest, b, hcss, hopens, hb, ?_, ?_⟩
  · simp only [List.length_append]
    omega
  · simp only [List.length_append] at hle ⊢
    omega

/-- Plain text has no place, since no confined prelude reaches into it. -/
theorem Plain.not_takesClass {a w z x y : Text} (h : Plain scope a w z) (hw : w = x ++ y)
    (hy : y ≠ []) : ¬ TakesClass scope (a ++ x) (y ++ z) := by
  rintro ⟨k, i, hplace⟩
  obtain ⟨before, prelude, rest, b, hcss, hopens, hb, hlow, hhigh⟩ := hplace.exists_prelude
  have hall : a ++ w ++ z = before ++ prelude ++ '{' :: rest := by
    rw [← hcss, hw]
    simp
  have hlength : (a ++ x).length < (a ++ w).length := by
    have := List.length_pos_iff.mpr hy
    simp only [hw, List.length_append]
    omega
  rcases lt_trichotomy (before ++ prelude).length (a ++ w).length with hlt | heq | hgt
  · -- the brace is in front of the text
    have hpre := concat_isPrefix hall.symm hlt
    have hbehind := Scan.length_lt_of_isBoundary hopens.record_eq.1 h.held hpre
    simp only [List.length_append] at hhigh hbehind
    omega
  · -- the text is the prelude
    obtain ⟨htext, rfl⟩ := List.append_inj hall heq.symm
    obtain rfl : w = prelude := by rw [← h.held, ← hopens.held, htext]
    obtain rfl := List.append_cancel_right htext
    rw [h.not_confined b rfl hopens] at hb
    simp at hb
  · -- the text ends in front of the brace
    cases z with
    | nil =>
      have hle := congrArg List.length hall
      simp only [List.length_append, List.length_cons, List.length_nil] at hle hgt
      omega
    | cons c z =>
      have hpre := concat_isPrefix hall hgt
      have hbehind := Scan.length_lt_of_isBoundary (h.boundary c rfl) hopens.held hpre
      omega

/-- Comments and string literals have no place inside, and plain text has none. -/
theorem not_takesClass {a w z : Text} (h : Literal a w ∨ Plain scope a w z) :
    ∀ x y, w = x ++ y → x ≠ [] → y ≠ [] → ¬ TakesClass scope (a ++ x) (y ++ z) := by
  intro x y hw hx hy
  rcases h with h | h
  · rintro ⟨k, i, hplace⟩
    exact h x y hw hx hy hplace.code
  · exact h.not_takesClass hw hy

/-! ## Confining puts the class in at places -/

/-- What is put in. -/
def inserted (scope : Text) : Text := scope ++ [' ']

/-- Text with the class put in, and more of it behind. -/
theorem woven_append {s t t' : Text} (h : Woven (inserted scope) (TakesClass scope) [] u t)
    (h' : Woven (inserted scope) (TakesClass scope) u s t') :
    Woven (inserted scope) (TakesClass scope) [] (u ++ s) (t ++ t') := by
  apply Woven.append _ h'
  apply h.imp
  rintro a v ⟨k, i, hplace⟩
  exact ⟨k, i, hplace.append s⟩

/-- What stands between the lead of a selector of a confined prelude and its body is a place for the
class. -/
theorem Opens.classPlace (h : Opens scope before prelude b) (hb : b.confined = true)
    {l r : List Text} {s lead body : Text} (hsplit : splitSelectors prelude = l ++ s :: r)
    (hcut : cutLead s = (lead, body)) (hbody : body ≠ []) :
    TakesClass scope (before ++ l.flatMap (· ++ [',']) ++ lead)
      (body ++ (r.flatMap ([','] ++ ·) ++ ['{'])) := by
  have hs := cutLead_append s
  have hlead := lead_cutLead s
  have hafter := after_lead s
  have hbare : Bare body := by
    have hbare := bare_cutLead (s := s) (by rwa [hcut])
    rwa [hcut] at hbare
  rw [hcut] at hs hlead hafter
  have hfront : listFront prelude l.length = l.flatMap (· ++ [',']) := by
    rw [listFront, hsplit, List.take_left']
    rfl
  have hprelude := eq_of_splitSelectors hsplit
  have hwhole : before ++ l.flatMap (· ++ [',']) ++ lead ++
      (body ++ (r.flatMap ([','] ++ ·) ++ ['{'])) = before ++ prelude ++ ['{'] := by
    rw [hprelude, ← hs]
    simp
  refine ⟨(scan scope (before ++ prelude)).blocks.length, l.length, ?_, before, prelude, [], lead,
    body, b, hwhole, h, ?_, hb, rfl, ?_, hlead, hbare, ?_⟩
  · have hbefore : Mode.after .code before = .code := by
      rw [← Scan.mode_read scope before, Scan.read_of_prelude h.held]
    rw [Mode.after_append, Mode.after_append, hbefore,
      after_flatMap_comma prelude l (s :: r) hsplit (by simp)]
    exact hafter
  · rw [hwhole, h.opened]
    simp
  · rw [hsplit, hs]
    simp
  · rw [hfront]

/-- A selector of a confined prelude gets the class at its place, or is left alone. -/
theorem Opens.woven_selector (h : Opens scope before prelude b) (hb : b.confined = true)
    {l r : List Text} {s : Text} (hsplit : splitSelectors prelude = l ++ s :: r) :
    Woven (inserted scope)
      (fun u v => TakesClass scope u (v ++ (r.flatMap ([','] ++ ·) ++ ['{'])))
      (before ++ l.flatMap (· ++ [','])) s (prefixSelector scope s) := by
  unfold prefixSelector
  split
  · exact .refl _ s
  · have happ := cutLead_append s
    cases hcut : cutLead s with
    | mk lead body =>
      cases body with
      | nil => exact .refl _ s
      | cons c t =>
        have hplace := h.classPlace hb hsplit hcut (by simp)
        rw [hcut] at happ
        have hwritten : lead ++ scope ++ ' ' :: c :: t = lead ++ (inserted scope ++ c :: t) := by
          simp [inserted]
        simp only at happ ⊢
        rw [hwritten]
        conv => arg 4; rw [← happ]
        exact (Woven.refl _ lead).append (.put_append (by simp) hplace)

/-- So do the selectors from one on, and the brace behind them. -/
theorem Opens.woven_selectors (h : Opens scope before prelude b) (hb : b.confined = true)
    {l : List Text} {s : Text} {r : List Text} (hsplit : splitSelectors prelude = l ++ s :: r) :
    Woven (inserted scope) (TakesClass scope)
      (before ++ l.flatMap (· ++ [','])) ([','].intercalate (s :: r) ++ ['{'])
      ([','].intercalate ((s :: r).map (prefixSelector scope)) ++ ['{']) := by
  rw [List.map_cons, intercalate_cons, intercalate_cons, List.append_assoc, List.append_assoc]
  apply (h.woven_selector hb hsplit).append
  induction r generalizing l s with
  | nil => exact .refl _ ['{']
  | cons q r ih =>
    have hsplit' : splitSelectors prelude = (l ++ [s]) ++ q :: r := by rw [hsplit]; simp
    have hrest := (h.woven_selector hb hsplit').append (ih hsplit')
    have hbefore : before ++ (l ++ [s]).flatMap (· ++ [',']) =
        before ++ l.flatMap (· ++ [',']) ++ s ++ [','] := by simp
    rw [hbefore] at hrest
    simpa using Woven.keep ',' hrest

/-- A prelude and the brace behind it, as they are written. -/
theorem Opens.woven_prelude (h : Opens scope before prelude b) (hb : b.confined = true) :
    Woven (inserted scope) (TakesClass scope) before (prelude ++ ['{'])
      (prefixSelectors scope prelude ++ ['{']) := by
  unfold prefixSelectors
  split
  · exact .refl _ _
  · obtain ⟨s, r, hsplit⟩ := exists_splitSelectors prelude
    have hall := h.woven_selectors hb (l := []) hsplit
    rw [← hsplit, intercalate_splitSelectors, List.flatMap_nil, List.append_nil] at hall
    exact hall

/-- What has been written is what was read up to the last boundary, with the class put in. -/
theorem exists_woven (scope t : Text) : ∃ u, t = u ++ (Scan.read scope t).prelude ∧
    Woven (inserted scope) (TakesClass scope) [] u (Scan.read scope t).done.reverse := by
  induction t using List.reverseRecOn with
  | nil => exact ⟨[], rfl, .nil []⟩
  | append_singleton t c ih =>
    obtain ⟨u, ht, hu⟩ := ih
    rw [Scan.read_concat]
    cases hb : isBoundary (Scan.read scope t).stack (Scan.read scope t).mode c with
    | false =>
      rw [Scan.step_of_not_isBoundary hb]
      refine ⟨u, ?_, hu⟩
      conv_lhs => rw [ht]
      simp [Scan.hold, Scan.prelude]
    | true =>
      have hprelude : Woven (inserted scope) (TakesClass scope) u
          ((Scan.read scope t).prelude ++ [c]) ((Scan.read scope t).sentOn scope c ++ [c]) := by
        unfold Scan.sentOn
        split
        · next hconf =>
          obtain rfl : c = '{' := by
            simp only [isConfined, Bool.and_eq_true, decide_eq_true_eq] at hconf
            exact hconf.1.1
          exact (opens_record ht hb).woven_prelude hconf
        · exact .refl _ _
      have hall := woven_append hu hprelude
      refine ⟨t ++ [c], ?_, ?_⟩
      · rw [Scan.step_of_isBoundary hb]
        simp [Scan.prelude]
      · rw [Scan.step_of_isBoundary hb]
        conv => arg 4; rw [ht]
        simpa using hall

/-- A confined stylesheet is the stylesheet with the class and a space put in between some of its
pieces, each time at a place in front of a selector. No two of them are put in at one place, and a
selector has one place at most. A stretch of text that has no place inside is copied as it is, and
comments, string literals and whatever is not the prelude of a confined block have none. -/
theorem scopeCss_inserts (scope css : Text) : ∃ pieces : List Text, pieces.flatten = css ∧
    scopeCss scope css = (scope ++ [' ']).intercalate pieces ∧
    (∀ l q r, pieces = l ++ q :: r → l ≠ [] →
      q ≠ [] ∧ TakesClass scope l.flatten (q :: r).flatten) ∧
    (∀ k i u v u' v', u ++ v = css → u' ++ v' = css →
      ClassPlace scope k i u v → ClassPlace scope k i u' v' → u = u') ∧
    (∀ a w z, css = a ++ (w ++ z) → w ≠ [] →
      (∀ x y, w = x ++ y → x ≠ [] → y ≠ [] → ¬ TakesClass scope (a ++ x) (y ++ z)) →
      ∃ l x y r, pieces = l ++ (x ++ w ++ y) :: r ∧ l.flatten ++ x = a) ∧
    ∀ a w z, css = a ++ (w ++ z) → Literal a w ∨ Plain scope a w z →
      ∀ x y, w = x ++ y → x ≠ [] → y ≠ [] → ¬ TakesClass scope (a ++ x) (y ++ z) := by
  obtain ⟨u, hcss, hwoven⟩ := exists_woven scope css
  have hall := woven_append hwoven (.refl u (Scan.read scope css).prelude)
  rw [← hcss, ← scopeCss_eq_done] at hall
  obtain ⟨p, ps, hflat, hwritten, hplaces⟩ := hall.exists_pieces
  simp only [List.nil_append] at hplaces
  refine ⟨p :: ps, hflat.symm, hwritten, hplaces, ?_, ?_, fun a w z _ => not_takesClass⟩
  · intro k i u v u' v' hu hu' h h'
    exact h.unique h' (hu.trans hu'.symm)
  · intro a w z hsplit hw hnone
    apply exists_piece hw (hflat.symm.trans hsplit)
    intro l q r hcut hl x y hxy hx hy hend
    obtain ⟨-, hplace⟩ := hplaces l q r hcut hl
    have hbehind : (q :: r).flatten = y ++ z := by
      rw [hcut, List.flatten_append, hend] at hflat
      rw [hflat, hxy, List.append_assoc, List.append_assoc] at hsplit
      exact List.append_cancel_left (List.append_cancel_left hsplit)
    rw [hend, hbehind] at hplace
    exact hnone x y hxy hx hy hplace

end StyleSnippet.Css
