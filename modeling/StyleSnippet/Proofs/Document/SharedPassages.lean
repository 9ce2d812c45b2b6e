import StyleSnippet.Proofs.Document.Gathered
import StyleSnippet.Proofs.Text.Leftmost

/-!
# What becomes of a body with banners

A body is cut at the leftmost banners. The CSS behind a banner goes to the first setting, depth
first, that is no heading and whose id the CSS mentions, and the banner is dropped. A banner whose
CSS nobody takes stays in the global CSS, CSS and all, behind what stands in front of the first
banner. So no ink of the body is lost but that of the banners that are dropped.
-/

set_option autoImplicit false

namespace StyleSnippet

open Text

/-! ## Where a banner begins -/

namespace Banner

/-- The text begins with a banner, which is written as `w`. Where it could be read with more than
one title, it is read with the shortest. -/
structure Begins (title w t : Text) : Prop where
  shape : ∃ b : Shape, b.title = title ∧ b.written = w
  isPrefix : w <+: t
  shortest : ∀ b : Shape, b.written <+: t → title.length ≤ b.title.length

/-- A banner is found at the start of a text just if the text begins with it. -/
theorem begins_iff (t title w : Text) :
    Begins title w t ↔ ∃ rest, pattern.match? t = some (title, w, rest) := by
  constructor
  · rintro ⟨⟨b, rfl, rfl⟩, ⟨rest, rfl⟩, hshort⟩
    exact ⟨rest, b.match?_of_shortest rest hshort⟩
  · rintro ⟨rest, h⟩
    obtain ⟨b, rfl⟩ := Shape.exists_of_match? h
    obtain ⟨rfl, -⟩ := pattern.sound h
    obtain ⟨b₀, ⟨rest₀, hsplit⟩, hshort⟩ :=
      Shape.exists_shortest (List.prefix_append b.written rest)
    have hsame := b₀.match?_of_shortest rest₀ (hsplit ▸ hshort)
    rw [hsplit, h, Option.some.injEq, Prod.mk.injEq, Prod.mk.injEq] at hsame
    obtain ⟨rfl, hwritten, -⟩ := hsame
    exact ⟨⟨b₀, rfl, hwritten.symm⟩, List.prefix_append _ _, hshort⟩

end Banner

/-! ## Passages -/

namespace Body

open Setting

/-- Each passage is a banner and the text up to the next one, and what is left is the text in front
of the first banner. -/
theorem passages_eq (os : List (Occurrence Text)) (tail : Text) :
    (passages (os, tail)).2.map (·.banner) = os.map (·.written) ∧
      (passages (os, tail)).1 :: (passages (os, tail)).2.map (·.css) =
        os.map (·.before) ++ [tail] := by
  induction os with
  | nil => simp [passages]
  | cons o os ih =>
    rw [passages_cons o (os, tail)]
    simp [ih.1, ih.2]

/-- A list that is taken apart in two and put together again, with a text for each item. -/
theorem perm_flatMap_filter {α : Type} (p : α → Bool) (f g : α → Text) (l : List α) :
    ((l.filter p).flatMap f ++ (l.filter fun x => !p x).flatMap g).Perm
      (l.flatMap fun x => if p x then f x else g x) := by
  have hyes : (l.filter p).flatMap f = (l.filter p).flatMap fun x => if p x then f x else g x := by
    apply List.flatMap_congr
    intro x hx
    rw [if_pos (List.mem_filter.mp hx).2]
  have hno : (l.filter fun x => !p x).flatMap g =
      (l.filter fun x => !p x).flatMap fun x => if p x then f x else g x := by
    apply List.flatMap_congr
    intro x hx
    have hx : p x = false := by simpa using (List.mem_filter.mp hx).2
    rw [hx, if_neg Bool.false_ne_true]
  rw [hyes, hno, ← List.flatMap_append]
  exact (List.filter_append_perm p l).flatMap_right _

/-- What was taken from a text and added to another one is in the two of them together, as before. -/
theorem perm_regroup {left shared old taken all : Text} (hshared : shared.Perm (old ++ taken))
    (hall : (taken ++ left).Perm all) : (left ++ shared).Perm (all ++ old) := by
  calc (left ++ shared).Perm (left ++ (old ++ taken)) := hshared.append_left left
    List.Perm _ (old ++ taken ++ left) := List.perm_append_comm
    _ = old ++ (taken ++ left) := List.append_assoc _ _ _
    List.Perm _ (old ++ all) := hall.append_left old
    List.Perm _ (all ++ old) := List.perm_append_comm

/-- What is in ink in front of the passages and in them, but for the banners of the passages that
somebody owns, ends up in the global CSS or in the CSS of the settings. -/
theorem perm_ink_sharePassages (settings : List Setting) (lead : Text) (ps : List Passage) :
    (ink (paragraphs (trim lead ::
        (ps.filter fun p => !owned settings (passagePiece p)).map fun p => trim p.written)) ++
      inkAll (handOut settings (ps.map passagePiece))).Perm
    (ink (lead ++ ps.flatMap fun p =>
        (if owned settings (passagePiece p) then [] else p.banner) ++ p.css) ++
      inkAll settings) := by
  have hform : ∀ q ∈ ps.map passagePiece, FormTest q.accepts := by
    intro q hq
    obtain ⟨p, -, rfl⟩ := List.mem_map.mp hq
    exact formTest_passagePiece p
  have hsettings := perm_inkAll_handOut hform settings
  have htaken : ((ps.map passagePiece).filter (owned settings)).flatMap (fun q => ink q.css) =
      (ps.filter fun p => owned settings (passagePiece p)).flatMap fun p => ink p.css := by
    rw [List.filter_map, List.flatMap_map]
    apply List.flatMap_congr
    intro p _
    exact ink_trim p.css
  have hleft : (ink (paragraphs (trim lead ::
      (ps.filter fun p => !owned settings (passagePiece p)).map fun p => trim p.written))) =
      ink lead ++ (ps.filter fun p => !owned settings (passagePiece p)).flatMap fun p =>
        ink p.written := by
    simp [ink_paragraphs, List.flatMap_map]
  have hboth : (ink (lead ++ ps.flatMap fun p =>
      (if owned settings (passagePiece p) then [] else p.banner) ++ p.css)) =
      ink lead ++ ps.flatMap fun p =>
        if owned settings (passagePiece p) then ink p.css else ink p.written := by
    rw [ink_append, ink_flatMap]
    congr 1
    apply List.flatMap_congr
    intro p _
    by_cases hp : owned settings (passagePiece p) = true <;> simp [hp, Passage.written]
  have hparts := perm_flatMap_filter (fun p => owned settings (passagePiece p))
    (fun p => ink p.css) (fun p => ink p.written) ps
  rw [htaken] at hsettings
  rw [hleft, hboth, List.append_assoc, List.append_assoc]
  exact (perm_regroup hsettings hparts).append_left (ink lead)

/-- A body that is shared out by its banners is cut at the leftmost of them. What stands behind a
banner, trimmed, goes to the first setting, depth first, that is no heading and whose id it
mentions, behind what the setting has; headings get nothing. The global CSS is what stands in front
of the first banner and the other passages with their banners, trimmed, a blank line between every
two. All ink of the body but that of the banners whose CSS is taken is then either in the global CSS
or in that of the settings, and nowhere twice. -/
theorem sharePassages_conserves (settings : List Setting) (body : Text) :
    ∃ (os : List (Occurrence Text)) (tail lead : Text) (ps : List Passage),
    (∀ os' tail', Pattern.Cuts Banner.Begins body os' tail' ↔ os' = os ∧ tail' = tail) ∧
    ps.map (·.banner) = os.map (·.written) ∧
    lead :: ps.map (·.css) = os.map (·.before) ++ [tail] ∧
    Handed settings (ps.map passagePiece) (sharePassages settings body).settings ∧
    (∀ (i : Nat) (s : Setting), (depthFirstAll settings)[i]? = some s → s.isHeading = true →
      (cssAll (sharePassages settings body).settings)[i]? = some s.css) ∧
    (sharePassages settings body).globalCss = paragraphs (trim lead ::
      (ps.filter fun p => !owned settings (passagePiece p)).map fun p => trim p.written) ∧
    (ink (sharePassages settings body).globalCss ++
        inkAll (sharePassages settings body).settings).Perm
      (ink (lead ++ ps.flatMap fun p =>
          (if owned settings (passagePiece p) then [] else p.banner) ++ p.css) ++
        inkAll settings) := by
  obtain ⟨os, tail, hsplit⟩ : ∃ os tail, Banner.pattern.split body = (os, tail) := ⟨_, _, rfl⟩
  obtain ⟨lead, ps, hpassages⟩ : ∃ lead ps, passages (os, tail) = (lead, ps) := ⟨_, _, rfl⟩
  have hcuts (os' : List (Occurrence Text)) (tail' : Text) :
      Pattern.Cuts Banner.Begins body os' tail' ↔ os' = (Banner.pattern.split body).1 ∧
        tail' = (Banner.pattern.split body).2 := Pattern.cuts_iff Banner.begins_iff
  obtain ⟨hbanners, hcss⟩ := passages_eq os tail
  have hhanded := handed_share .asterisk settings body
  have hshare : sharePassages settings body = ⟨handOut settings (ps.map passagePiece),
      paragraphs (trim lead ::
        (ps.filter fun p => !owned settings (passagePiece p)).map fun p => trim p.written)⟩ := by
    simp only [sharePassages, hsplit, hpassages, handOutPassages_eq]
  rw [hpassages] at hbanners hcss
  rw [pieces, hsplit, hpassages, share] at hhanded
  refine ⟨os, tail, lead, ps, by simpa only [hsplit] using hcuts, hbanners, hcss, hhanded, ?_,
    by rw [hshare], ?_⟩
  · intro i s hs hheading
    refine hhanded.css_eq hs fun q hq => ?_
    obtain ⟨p, -, rfl⟩ := List.mem_map.mp hq
    simp [passagePiece, owns, hheading]
  · rw [hshare]
    exact perm_ink_sharePassages settings lead ps

end Body

end StyleSnippet
