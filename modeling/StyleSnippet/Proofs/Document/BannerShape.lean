import StyleSnippet.Proofs.Document.Row

/-!
# How banners are written

A banner is written as a row, a comment with its title, and another row, with white space that
holds a line feed on either side of the comment. A text that holds such a thing has a banner
occurring in it, whatever stands around it, so it goes on having one when it is trimmed or
indented or when other text comes before or behind it.
-/

set_option autoImplicit false

namespace StyleSnippet

open Text Css

namespace Banner

variable {t g rest : Text}

/-! ## Reading the parts of a banner -/

/-- A row is read as such. -/
theorem row?_row {k : Nat} (hk : minStars ≤ k) (rest : Text) :
    row? (row k ++ rest) = some (row k, rest) := by
  have hstars : ∀ c ∈ List.replicate k '*', decide (c = '*') = true := by
    intro c hc
    simpa using List.eq_of_mem_replicate hc
  have htake : (List.replicate k '*' ++ '/' :: rest).takeWhile (· = '*') =
      List.replicate k '*' := by
    rw [List.takeWhile_append_of_pos hstars, List.takeWhile_cons_of_neg (by decide),
      List.append_nil]
  have hdrop : (List.replicate k '*' ++ '/' :: rest).dropWhile (· = '*') = '/' :: rest := by
    rw [List.dropWhile_append_of_pos hstars, List.dropWhile_cons_of_neg (by decide)]
  have hrow : row k ++ rest = '/' :: (List.replicate k '*' ++ '/' :: rest) := by
    simp [row]
  rw [hrow, row?]
  simp only [htake, hdrop, List.length_replicate, if_pos hk]
  rfl

/-- White space that holds a line feed, in front of ink, is read as a gap. -/
theorem gap?_append {c : Char} (hg : Blank g) (hfeed : '\n' ∈ g) (hc : isBlank c = false)
    (r : Text) : gap? (g ++ c :: r) = some (g, c :: r) := by
  have htake : (g ++ c :: r).takeWhile isBlank = g := by
    rw [List.takeWhile_append_of_pos hg, List.takeWhile_cons_of_neg (by simp [hc]),
      List.append_nil]
  have hdrop : (g ++ c :: r).dropWhile isBlank = c :: r := by
    rw [dropWhile_blank_append hg, List.dropWhile_cons_of_neg (by simp [hc])]
  rw [gap?, htake, hdrop]
  exact if_pos hfeed

/-- A gap is white space with a line feed in it. -/
theorem of_gap? (h : gap? t = some (g, rest)) : Blank g ∧ '\n' ∈ g := by
  simp only [gap?, Option.ite_none_right_eq_some, Option.some.injEq, Prod.mk.injEq] at h
  obtain ⟨hfeed, rfl, -⟩ := h
  exact ⟨fun c hc => List.mem_takeWhile_imp hc, hfeed⟩

/-- The end of a banner is read as such. -/
theorem ending?_append {k : Nat} (hg : Blank g) (hfeed : '\n' ∈ g) (hk : minStars ≤ k)
    (rest : Text) :
    ending? ("*/".toList ++ (g ++ (row k ++ rest))) = some ("*/".toList ++ g ++ row k, rest) := by
  have hgap : gap? (g ++ (row k ++ rest)) = some (g, row k ++ rest) :=
    gap?_append (c := '/') hg hfeed (by decide) _
  rw [ending?]
  simp only [after?_append, hgap, row?_row hk, Option.bind_eq_bind, Option.bind_some,
    Option.pure_def]

/-- What is read as the end of a banner is the end of a comment and a row behind it. -/
theorem of_ending? {w : Text} (h : ending? t = some (w, rest)) :
    ∃ g k, Blank g ∧ '\n' ∈ g ∧ minStars ≤ k ∧ w = "*/".toList ++ g ++ row k := by
  simp only [ending?, Option.bind_eq_bind, Option.bind_eq_some_iff, Prod.exists, Option.pure_def,
    Option.some.injEq, Prod.mk.injEq] at h
  obtain ⟨_, -, g, _, hgap, _, _, hrow, rfl, -⟩ := h
  obtain ⟨hg, hfeed⟩ := of_gap? hgap
  obtain ⟨k, hk, rfl⟩ := exists_of_row? hrow
  exact ⟨g, k, hg, hfeed, hk, rfl⟩

/-- A title lies on one line, and behind it the banner ends. -/
theorem of_titled? {title w : Text} (h : titled? t = some (title, w, rest)) :
    '\n' ∉ title ∧ ∃ x, ending? x = some (w, rest) := by
  induction t generalizing title with
  | nil => simp [titled?] at h
  | cons c r ih =>
    simp only [titled?] at h
    split at h
    · next hr =>
      simp only [Option.some.injEq, Prod.mk.injEq] at h
      obtain ⟨rfl, rfl, rfl⟩ := h
      exact ⟨by simp, c :: r, hr⟩
    · simp only [Option.ite_none_left_eq_some, Option.map_eq_some_iff, Prod.mk.injEq,
        Prod.exists] at h
      obtain ⟨hc, title', w', rest', hp, rfl, rfl, rfl⟩ := h
      obtain ⟨hfeed, hx⟩ := ih hp
      exact ⟨by simp [hfeed, Ne.symm hc], hx⟩

/-- A title goes on up to the first place where the end of a banner stands. -/
theorem titled?_append {s x w : Text} (hfeed : '\n' ∉ s)
    (hfirst : ∀ u v, s = u ++ v → v ≠ [] → ending? (v ++ x) = none)
    (hx : ending? x = some (w, rest)) : titled? (s ++ x) = some (s, w, rest) := by
  induction s with
  | nil =>
    cases x with
    | nil => simp [ending?, Text.after?] at hx
    | cons c x =>
      rw [List.nil_append, titled?, hx]
  | cons c s ih =>
    simp only [List.mem_cons, not_or] at hfeed
    have hnone : ending? (c :: (s ++ x)) = none := hfirst [] (c :: s) rfl (by simp)
    have hrest := ih hfeed.2 fun u v huv => hfirst (c :: u) v (by rw [huv]; rfl)
    rw [List.cons_append, titled?, hnone]
    simp only [if_neg (Ne.symm hfeed.1), hrest, Option.map_some]

/-! ## Whole banners -/

/-- The parts that a banner is written with. -/
structure Shape where
  /-- The number of asterisks in the row above the title. -/
  above : Nat
  gapAbove : Text
  title : Text
  gapBelow : Text
  /-- The number of asterisks in the row below the title. -/
  below : Nat
  above_le : minStars ≤ above
  below_le : minStars ≤ below
  blank_above : Blank gapAbove
  feed_above : '\n' ∈ gapAbove
  blank_below : Blank gapBelow
  feed_below : '\n' ∈ gapBelow
  /-- The title lies on one line. -/
  title_line : '\n' ∉ title

namespace Shape

/-- The text of a banner with the given parts. -/
def written (b : Shape) : Text :=
  row b.above ++ (b.gapAbove ++ ("/*".toList ++ (b.title ++ ("*/".toList ++
    (b.gapBelow ++ row b.below)))))

/-- The parts of a banner, one behind the other, in front of what follows it. -/
theorem written_append (b : Shape) (rest : Text) : b.written ++ rest =
    row b.above ++ (b.gapAbove ++ ("/*".toList ++ (b.title ++ ("*/".toList ++
      (b.gapBelow ++ (row b.below ++ rest)))))) := by
  simp only [written, List.append_assoc]

/-- Where a banner could end in its own title, it can be read with the part of the title in front
of that place. -/
theorem exists_shorter (b : Shape) {u v w rest rest' : Text} (huv : b.title = u ++ v)
    (hend : ending? (v ++ ("*/".toList ++ (b.gapBelow ++ (row b.below ++ rest)))) =
      some (w, rest')) :
    ∃ b' : Shape, b'.title = u ∧ b'.written <+: b.written ++ rest := by
  obtain ⟨g, k, hg, hfeed, hk, hwritten⟩ := of_ending? hend
  have hline : '\n' ∉ u := fun hm => b.title_line (by simp [huv, hm])
  refine ⟨{ b with
    title := u
    gapBelow := g
    below := k
    below_le := hk
    blank_below := hg
    feed_below := hfeed
    title_line := hline }, rfl, rest', ?_⟩
  rw [b.written_append, huv, List.append_assoc u v, eq_of_ending? hend, hwritten]
  simp only [written, List.append_assoc]

/-- A banner is recognised as it is written if none with a shorter title is written there. -/
theorem match?_of_shortest (b : Shape) (rest : Text)
    (hshort : ∀ b' : Shape, b'.written <+: b.written ++ rest → b.title.length ≤ b'.title.length) :
    pattern.match? (b.written ++ rest) = some (b.title, b.written, rest) := by
  have hfirst : ∀ u v, b.title = u ++ v → v ≠ [] →
      ending? (v ++ ("*/".toList ++ (b.gapBelow ++ (row b.below ++ rest)))) = none := by
    intro u v huv hv
    cases hend : ending? (v ++ ("*/".toList ++ (b.gapBelow ++ (row b.below ++ rest)))) with
    | none => rfl
    | some p =>
      obtain ⟨b', rfl, hprefix⟩ := b.exists_shorter huv hend
      have hle := hshort b' hprefix
      have hpos := List.length_pos_iff.mpr hv
      rw [huv, List.length_append] at hle
      omega
  have htitled := titled?_append b.title_line hfirst
    (ending?_append b.blank_below b.feed_below b.below_le rest)
  have hgap : gap? (b.gapAbove ++ ("/*".toList ++ (b.title ++ ("*/".toList ++
      (b.gapBelow ++ (row b.below ++ rest)))))) = some (b.gapAbove, "/*".toList ++ (b.title ++
        ("*/".toList ++ (b.gapBelow ++ (row b.below ++ rest))))) :=
    gap?_append (c := '/') b.blank_above b.feed_above (by decide) _
  have hread : ofText? (b.written ++ rest) =
      some ({ title := b.title, written := b.written }, rest) := by
    rw [ofText?, b.written_append]
    simp only [row?_row b.above_le, hgap, after?_append, htitled, Option.bind_eq_bind,
      Option.bind_some, Option.pure_def, written, List.append_assoc]
  simp only [pattern, hread, Option.map_some]

/-- Of the banners that a text can be read to start with, one has the shortest title. -/
theorem exists_shortest {t : Text} {b : Shape} (h : b.written <+: t) :
    ∃ b₀ : Shape, b₀.written <+: t ∧
      ∀ b' : Shape, b'.written <+: t → b₀.title.length ≤ b'.title.length := by
  induction hn : b.title.length using Nat.strongRecOn generalizing b with
  | ind n ih =>
    by_cases hmin : ∀ b' : Shape, b'.written <+: t → b.title.length ≤ b'.title.length
    · exact ⟨b, h, hmin⟩
    · simp only [not_forall, Nat.not_le] at hmin
      obtain ⟨b', hb', hlt⟩ := hmin
      exact ih b'.title.length (hn ▸ hlt) hb' rfl

/-- A banner is recognised, whatever stands behind it. It can be one with a shorter title. -/
theorem isSome_match? (b : Shape) (rest : Text) : (pattern.match? (b.written ++ rest)).isSome := by
  obtain ⟨b₀, ⟨rest₀, hsplit⟩, hshort⟩ := exists_shortest (List.prefix_append b.written rest)
  rw [← hsplit] at hshort ⊢
  rw [b₀.match?_of_shortest rest₀ hshort]
  rfl

/-- What is recognised as a banner has the parts of one. -/
theorem exists_of_match? {title w : Text} (h : pattern.match? t = some (title, w, rest)) :
    ∃ b : Shape, b.written = w := by
  simp only [pattern, ofText?, Option.bind_eq_bind, Option.map_eq_some_iff,
    Option.bind_eq_some_iff, Prod.exists, Option.pure_def, Option.some.injEq, Prod.mk.injEq] at h
  obtain ⟨_, _, ⟨_, _, hrow, g, _, hgap, _, -, s, _, _, htitled, rfl, -⟩, -, rfl, -⟩ := h
  obtain ⟨j, hj, rfl⟩ := exists_of_row? hrow
  obtain ⟨hg, hgfeed⟩ := of_gap? hgap
  obtain ⟨hs, x, hending⟩ := of_titled? htitled
  obtain ⟨g', k, hg', hfeed', hk, rfl⟩ := of_ending? hending
  exact ⟨⟨j, g, s, g', k, hj, hk, hg, hgfeed, hg', hfeed', hs⟩, by simp [written]⟩

/-- A banner starts and ends with ink. -/
theorem trimmed_written (b : Shape) : b.written ≠ [] ∧ Trimmed b.written := by
  have hrow : Trimmed (row b.above) ∧ Trimmed (row b.below) := by
    constructor <;>
      exact ⟨by simp [row]; decide, by simp [row, List.getLast?_cons]; decide⟩
  have hne (k : Nat) : row k ≠ [] := by simp [row]
  have hsplit : b.written = row b.above ++ (b.gapAbove ++ ("/*".toList ++ (b.title ++
      ("*/".toList ++ b.gapBelow)))) ++ row b.below := by
    simp only [written, List.append_assoc]
  refine ⟨by simp [written, row], ?_⟩
  rw [hsplit]
  exact hrow.1.append hrow.2 (hne _) (hne _) _

end Shape

/-- A banner occurs in a text if the text holds one as it is written. -/
theorem occursIn_iff : pattern.occursIn t = true ↔ ∃ b : Shape, b.written <:+: t := by
  rw [Pattern.occursIn_iff]
  constructor
  · rintro ⟨r, hr, ⟨title, w, rest⟩, hm⟩
    obtain ⟨b, rfl⟩ := Shape.exists_of_match? hm
    obtain ⟨hsplit, -⟩ := pattern.sound hm
    exact ⟨b, (hsplit ▸ (List.prefix_append b.written rest).isInfix).trans hr.isInfix⟩
  · rintro ⟨b, u, v, rfl⟩
    refine ⟨b.written ++ v, ⟨u, by simp⟩, ?_⟩
    exact Option.isSome_iff_exists.mp (b.isSome_match? v)

/-! ## Banners that stay -/

/-- A banner in a text is a banner in a text around it. -/
theorem occursIn_mono {s : Text} (h : pattern.occursIn s = true) (hst : s <:+: t) :
    pattern.occursIn t = true := by
  obtain ⟨b, hb⟩ := occursIn_iff.mp h
  exact occursIn_iff.mpr ⟨b, hb.trans hst⟩

/-- A text with a banner has one when it is trimmed, since no banner starts or ends with white
space. -/
theorem occursIn_trim (h : pattern.occursIn t = true) : pattern.occursIn (trim t) = true := by
  obtain ⟨b, hb⟩ := occursIn_iff.mp h
  obtain ⟨hne, htrim⟩ := b.trimmed_written
  exact occursIn_iff.mpr ⟨b, htrim.infix_trim hne hb⟩

/-- Other white space leaves banners, as long as there are line feeds where there were. -/
theorem occursIn_relaid {s : Text} (hst : Relaid s t) (h : pattern.occursIn s = true) :
    pattern.occursIn t = true := by
  obtain ⟨b, u, v, rfl⟩ := occursIn_iff.mp h
  have hink (k : Nat) : Solid (row k) := by
    intro c hc
    rcases mem_row hc with rfl | rfl <;> decide
  have hsplit : u ++ b.written ++ v = u ++ row b.above ++ (b.gapAbove ++ "/*".toList ++
      (b.title ++ "*/".toList ++ (b.gapBelow ++ row b.below ++ v))) := by
    simp only [Shape.written, List.append_assoc]
  rw [hsplit] at hst
  obtain ⟨u', t₁, rfl, -, h₁⟩ := hst.append_inv (hink _) (by simp [row])
  obtain ⟨g, t₂, rfl, hg, h₂⟩ := h₁.append_inv (by decide) (by decide)
  obtain ⟨title, t₃, rfl, htitle, h₃⟩ := h₂.append_inv (by decide) (by decide)
  obtain ⟨g', v', rfl, hg', -⟩ := h₃.append_inv (hink _) (by simp [row])
  refine occursIn_iff.mpr ⟨{ b with
      gapAbove := g
      title := title
      gapBelow := g'
      blank_above := hg.blank_iff.mp b.blank_above
      feed_above := hg.feed_iff.mp b.feed_above
      blank_below := hg'.blank_iff.mp b.blank_below
      feed_below := hg'.feed_iff.mp b.feed_below
      title_line := fun hm => b.title_line (htitle.feed_iff.mpr hm) }, u', v', ?_⟩
  simp only [Shape.written, List.append_assoc]

/-- Indenting a stylesheet takes no banner away. -/
theorem occursIn_formatBlock (h : pattern.occursIn t = true) :
    pattern.occursIn (formatBlock t) = true := by
  obtain ⟨b, hb⟩ := occursIn_iff.mp h
  obtain ⟨hne, htrim⟩ := b.trimmed_written
  have hink : ¬ Blank t := fun hblank =>
    htrim.not_blank hne fun c hc => hblank c (hb.subset hc)
  have hfeed (s : Text) : trim ('\n' :: s) = trim s :=
    trim_blank_append blank_feed s
  obtain ⟨y, w, hw, hsplit, hrelaid⟩ := relaid_formatBlock hink
  have htrimmed : trim y = trim t := by
    rw [← trim_append_blank hw, ← hsplit, hfeed]
  have hy : pattern.occursIn y = true :=
    occursIn_mono (htrimmed ▸ occursIn_trim h) (isInfix_trim y)
  have hdone := occursIn_trim (occursIn_relaid hrelaid hy)
  rwa [hfeed, (trimmed_formatBlock t).trim_eq] at hdone

end Banner

end StyleSnippet
