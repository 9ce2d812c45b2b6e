import StyleSnippet.Proofs.Document.BannerShape
import StyleSnippet.Proofs.Document.Title

/-!
# Bodies with banners

A body that is made of text without a row, and of banners with CSS behind it, is cut at just these
banners. Each of them is read back whatever its title was, since the title that is written keeps
to its comment.
-/

set_option autoImplicit false

namespace StyleSnippet

open Text

namespace Banner

variable {title css : Text}

/-! ## One banner -/

/-- The number of asterisks that a row is written with. -/
def width (stars : Nat) : Nat := max stars minStars

/-- The banner that a title is written in, up to the line feed in front of the CSS. -/
def head (stars : Nat) (title : Text) : Text :=
  row (width stars) ++ "\n/* ".toList ++ plainTitle title ++ " */\n".toList ++ row (width stars)

/-- A banner is its head and the CSS on the next line. -/
theorem render_eq (stars : Nat) (title css : Text) :
    render stars title css = head stars title ++ '\n' :: css := rfl

/-- A title on one line goes on up to the end of its comment, if a row follows that. -/
theorem titled?_eq {s x written rest : Text} (hfeed : '\n' ∉ s)
    (hend : ¬ "*/".toList <:+: s ++ ['*'])
    (hread : ending? ("*/".toList ++ x) = some (written, rest)) :
    titled? (s ++ ("*/".toList ++ x)) = some (s, written, rest) := by
  refine titled?_append hfeed ?_ hread
  rintro u v rfl hv
  rw [ending?, after?_eq_none_iff.mpr]
  · rfl
  · intro hp
    have hfront : v ++ ['*'] <+: v ++ ("*/".toList ++ x) := ⟨'/' :: x, by simp⟩
    have hpos := List.length_pos_iff.mpr hv
    have hin : "*/".toList <+: v ++ ['*'] :=
      List.prefix_of_prefix_length_le hp hfront (by simp; omega)
    exact hend (hin.isInfix.trans ⟨u, [], by simp⟩)

/-- A banner is read back, whatever its title was. -/
theorem match?_head (stars : Nat) (title rest : Text) :
    pattern.match? (head stars title ++ rest) =
      some (' ' :: (plainTitle title ++ [' ']), head stars title, rest) := by
  have hk : minStars ≤ width stars := Nat.le_max_right _ _
  obtain ⟨hfeed, hend⟩ := plainTitle_fits title
  set k := width stars with hkdef
  set s := ' ' :: (plainTitle title ++ [' ']) with hs
  have hhead : head stars title =
      row k ++ ['\n'] ++ "/*".toList ++ s ++ ("*/\n".toList ++ row k) := by
    rw [head, ← hkdef, hs]
    simp
  have hline : '\n' ∉ s := by
    simp [hs, hfeed]
  have hclosed : ¬ "*/".toList <:+: s ++ ['*'] := by
    have hsplit : s ++ ['*'] = [] ++ ' ' :: (plainTitle title ++ ' ' :: ['*']) := by simp [hs]
    rw [hsplit, infix_append_cons (by decide), infix_append_cons (by decide)]
    rintro (h | h | h)
    · exact absurd h (by decide)
    · exact hend h
    · exact absurd h (by decide)
  have hending : ending? ("*/".toList ++ ('\n' :: (row k ++ rest))) =
      some ("*/\n".toList ++ row k, rest) :=
    ending?_append (g := ['\n']) blank_feed (by simp) hk rest
  have htitled := titled?_eq hline hclosed hending
  have hgap : gap? ('\n' :: ("/*".toList ++ (s ++ ("*/".toList ++ ('\n' :: (row k ++ rest)))))) =
      some (['\n'], "/*".toList ++ (s ++ ("*/".toList ++ ('\n' :: (row k ++ rest))))) :=
    gap?_append (g := ['\n']) (c := '/') blank_feed (by simp) (by decide) _
  have htext : head stars title ++ rest =
      row k ++ ('\n' :: ("/*".toList ++ (s ++ ("*/".toList ++ ('\n' :: (row k ++ rest)))))) := by
    rw [hhead]
    simp
  have hread : ofText? (head stars title ++ rest) =
      some ({ title := s, written := head stars title }, rest) := by
    rw [htext, ofText?]
    simp only [row?_row hk, hgap, after?_append, htitled, Option.bind_eq_bind, Option.bind_some,
      Option.pure_def, hhead, List.append_assoc]
  simp only [pattern, hread, Option.map_some]

/-! ## Bodies of written banners -/

/-- A banner starts with a row, and a row holds no line feed. -/
theorem marked : pattern.Marked '\n' (fun n => ∃ k, minStars ≤ k ∧ n = row k) := by
  refine ⟨?_, ?_, ?_⟩
  · rintro n ⟨k, -, rfl⟩
    simp [row]
  · rintro n ⟨k, -, rfl⟩
    exact not_mem_row (by decide) (by decide) k
  · intro t m h
    obtain ⟨k, hk, hp⟩ := row_prefix h
    exact ⟨row k, ⟨k, hk, rfl⟩, hp⟩

/-- Text without rows holds no mark of a banner. -/
theorem not_infix_mark {g : Text} (hg : ¬ HasRow g) :
    ∀ n, (∃ k, minStars ≤ k ∧ n = row k) → ¬ n <:+: g := by
  rintro n ⟨k, hk, rfl⟩ hi
  exact hg ⟨k, hk, hi⟩

end Banner

namespace Body

open Banner

/-- Text in front of a split text goes in front of the text before the first banner. -/
theorem passages_prepend (u : Text) (s : List (Occurrence Text) × Text) :
    passages (Pattern.prepend u s) = (u ++ (passages s).1, (passages s).2) := by
  obtain ⟨os, rest⟩ := s
  cases os with
  | nil => simp [passages]
  | cons o os => simp [passages]

/-- The text behind a banner, up to the next one, is its CSS. -/
theorem passages_cons (o : Occurrence Text) (s : List (Occurrence Text) × Text) :
    passages (o :: s.1, s.2) =
      (o.before, ⟨o.written, (passages s).1⟩ :: (passages s).2) := by
  obtain ⟨os, rest⟩ := s
  rw [passages]

/-- No banner starts in a blank line. -/
theorem split_blankLine (t : Text) :
    pattern.split (blankLine ++ t) = Pattern.prepend blankLine (pattern.split t) := by
  have hfeeds : blankLine ++ t = '\n' :: ('\n' :: t) := rfl
  rw [hfeeds, marked.split_cons, marked.split_cons]
  rfl

/-- Banners with CSS behind blank lines are read as passages, each with its CSS. -/
theorem passages_flatMap (stars : Nat) {ps : List (Text × Text)} (hps : ∀ p ∈ ps, ¬ HasRow p.2) :
    ∃ u qs, passages (pattern.split (ps.flatMap fun p => blankLine ++ render stars p.1 p.2)) =
        (u, qs) ∧ Blank u ∧
      List.Forall₂ (fun p (q : Passage) => ∃ v, Blank v ∧ q.css = '\n' :: (p.2 ++ v)) ps qs := by
  induction ps with
  | nil => exact ⟨[], [], by simp [Pattern.split, passages], blank_nil, .nil⟩
  | cons p ps ih =>
    obtain ⟨u, qs, hsplit, hu, hqs⟩ := ih fun q hq => hps q (List.mem_cons_of_mem p hq)
    have hcss : ¬ HasRow ('\n' :: p.2) := by
      rw [← List.nil_append ('\n' :: p.2), hasRow_append_feed]
      rintro (h | h)
      · exact not_hasRow (by decide) h
      · exact hps p (by simp) h
    have hbehind := marked.split_append (not_infix_mark hcss)
      (flatMap_blankLine_cases (fun p => render stars p.1 p.2) ps)
    refine ⟨blankLine, ⟨head stars p.1, '\n' :: p.2 ++ u⟩ :: qs, ?_, blank_blankLine,
      .cons ⟨u, hu, by simp⟩ hqs⟩
    rw [List.flatMap_cons, render_eq, List.append_assoc, List.append_assoc, split_blankLine,
      pattern.split_of_match (match?_head stars p.1 _), passages_prepend, passages_cons, hbehind,
      passages_prepend, hsplit, List.append_nil]

/-- A body of at most one piece of text without a row, and of banners with CSS behind it, is read
as that piece, white space aside, and a passage for each banner. -/
theorem passages_intercalate (stars : Nat) {gs : List Text} {ps : List (Text × Text)}
    (hone : gs.length ≤ 1) (hg : ∀ g ∈ gs, ¬ HasRow g) (hps : ∀ p ∈ ps, ¬ HasRow p.2) :
    ∃ u qs, passages (pattern.split
          (blankLine.intercalate (gs ++ ps.map fun p => render stars p.1 p.2))) =
        (gs.flatten ++ u, qs) ∧ Blank u ∧
      List.Forall₂ (fun p (q : Passage) => ∃ v, Blank v ∧ q.css = '\n' :: (p.2 ++ v)) ps qs := by
  have hflat (ps : List (Text × Text)) :
      (ps.map fun p => render stars p.1 p.2).flatMap (blankLine ++ ·) =
        ps.flatMap fun p => blankLine ++ render stars p.1 p.2 := by
    rw [List.flatMap_map]
  obtain ⟨u, qs, hsplit, hu, hqs⟩ := passages_flatMap stars hps
  match gs, hone with
  | [], _ =>
    cases ps with
    | nil => exact ⟨[], [], by simp [List.intercalate, Pattern.split, passages], blank_nil, .nil⟩
    | cons p ps =>
      -- the first banner has no blank line in front
      rw [List.flatMap_cons, List.append_assoc, split_blankLine, passages_prepend,
        Prod.mk.injEq] at hsplit
      obtain ⟨hfront, hrest⟩ := hsplit
      rw [List.nil_append, List.map_cons, intercalate_cons, hflat]
      refine ⟨_, qs, Prod.ext rfl hrest, ?_, hqs⟩
      have hu' := hfront ▸ hu
      exact (blank_append.mp hu').2
  | [g], _ =>
    have hg' : ¬ HasRow g := by simpa using hg
    rw [List.singleton_append, intercalate_cons, hflat,
      marked.split_append (not_infix_mark hg') (flatMap_blankLine_cases _ _), passages_prepend,
      hsplit]
    exact ⟨u, qs, by simp, hu, hqs⟩

/-! ## Passages handed out -/

open Setting

/-- The piece of CSS that a passage holds. Nobody takes an empty piece. -/
def passagePiece (p : Passage) : Piece :=
  { accepts := fun s => !(Text.trim p.css).isEmpty && owns (Text.trim p.css) s
    css := Text.trim p.css }

/-- Who owns a passage does not depend on the CSS that is there already. -/
theorem formTest_passagePiece (p : Passage) : FormTest (passagePiece p).accepts := fun _ => rfl

/-- Passages that hold given CSS, white space aside, are pieces of this CSS. -/
theorem map_passagePiece {ps : List (Text × Text)} {qs : List Passage}
    (hps : ∀ p ∈ ps, p.2 ≠ [] ∧ Trimmed p.2)
    (hqs : List.Forall₂ (fun p (q : Passage) => ∃ v, Blank v ∧ q.css = '\n' :: (p.2 ++ v)) ps qs) :
    qs.map passagePiece = ps.map fun p => { accepts := fun t => owns p.2 t, css := p.2 } := by
  induction hqs with
  | nil => rfl
  | @cons p q ps qs hpq _ ih =>
    obtain ⟨v, hv, hq⟩ := hpq
    obtain ⟨hne, htrim⟩ := hps p (by simp)
    have hcss : Text.trim q.css = p.2 := by
      rw [hq]
      exact (trim_pad blank_feed hv p.2).trans htrim.trim_eq
    rw [List.map_cons, List.map_cons, ih fun p hp => hps p (List.mem_cons_of_mem _ hp)]
    have hink : p.2.isEmpty = false := by simpa using hne
    simp only [passagePiece, hcss, hink, Bool.not_false, Bool.true_and]

/-- A passage is handed to the first setting that takes its piece. -/
theorem handOut?_eq (p : Passage) (settings : List Setting) :
    handOut? (Text.trim p.css) settings =
      updateFirstOf? (passagePiece p).accepts (appendCss (passagePiece p).css) settings := by
  rw [handOut?]
  split
  · next hempty =>
    symm
    rw [updateFirstOf?_eq_none]
    intro s _
    simp [passagePiece, hempty]
  · next hne =>
    have hsame : owns (Text.trim p.css) = (passagePiece p).accepts := by
      funext s
      simp [passagePiece, hne]
    rw [hsame]
    rfl

/-- Passages are handed out piece by piece. Those that nobody owns are left. -/
theorem handOutPassages_eq (settings : List Setting) (ps : List Passage) :
    handOutPassages settings ps =
      (handOut settings (ps.map passagePiece),
        ps.filter fun p => !owned settings (passagePiece p)) := by
  induction ps generalizing settings with
  | nil => rfl
  | cons p ps ih =>
    rw [handOutPassages]
    cases h : handOut? (Text.trim p.css) settings with
    | none =>
      rw [handOut?_eq] at h
      have howned : owned settings (passagePiece p) = false := owned_eq_false_iff.mpr
        (updateFirstOf?_eq_none.mp h)
      simp [ih, handOut, h, howned]
    | some settings' =>
      rw [handOut?_eq] at h
      obtain ⟨hform, l₁, s, l₂, hl, -, hs, -⟩ := of_updateFirstOf? (appendCss_eq _) h
      have howned : owned settings (passagePiece p) = true := owned_iff.mpr ⟨s, by simp [hl], hs⟩
      have hleft : (ps.filter fun q => !owned settings' (passagePiece q)) =
          ps.filter fun q => !owned settings (passagePiece q) := by
        apply List.filter_congr
        intro q _
        rw [owned_eq (formTest_passagePiece q) hform]
      simp [ih, handOut, h, howned, hleft]

end Body

end StyleSnippet
