import StyleSnippet.Css.Code
import StyleSnippet.Proofs.Css.Comment

/-!
# The code of a stylesheet, character by character

`codeOnly` skips whole comments and strings at a time. Here it is told once more by the automaton
of modes, which gives out a character as soon as it is known to be code. From this it follows
that an at-rule name cannot come up where a class is put in.
-/

set_option autoImplicit false

namespace StyleSnippet.Css

open Text

variable {scope s t : Text} {m : Mode}

/-! ## The code by modes -/

namespace Mode

/-- The code that is known once one more character is read. A solidus waits for the next
character, since it may open a comment. -/
def given : Mode → Char → Text
  | code, c => if c = '/' ∨ c = '"' ∨ c = '\'' then [] else [c]
  | slash, c =>
    if c = '*' then [] else if c = '/' ∨ c = '"' ∨ c = '\'' then ['/'] else ['/', c]
  | _, _ => []

/-- The code that is known once a text is read. -/
def givenBy (m : Mode) : Text → Text
  | [] => []
  | c :: r => m.given c ++ givenBy (m.next c) r

/-- The code of a text, where the text ends. -/
def codeFrom (m : Mode) (t : Text) : Text :=
  m.givenBy t ++ (if m.after t = slash then ['/'] else [])

/-- What is known to be code of two texts, one behind the other. -/
@[simp] theorem givenBy_append (m : Mode) (s t : Text) :
    m.givenBy (s ++ t) = m.givenBy s ++ (m.after s).givenBy t := by
  induction s generalizing m with
  | nil => rfl
  | cons c r ih => simp [givenBy, ih]

/-- The code of two texts, one behind the other: of the first one only what is known to be code when
it ends, since its last character may open a comment with the second one. -/
theorem codeFrom_append (m : Mode) (s t : Text) :
    m.codeFrom (s ++ t) = m.givenBy s ++ (m.after s).codeFrom t := by
  rw [codeFrom, codeFrom, givenBy_append, after_append, List.append_assoc]

/-- The code of a text, from its first character on. -/
theorem codeFrom_cons (m : Mode) (c : Char) (t : Text) :
    m.codeFrom (c :: t) = m.given c ++ (m.next c).codeFrom t := by
  simpa [givenBy] using codeFrom_append m [c] t

/-- In a comment or a string literal no character is known to be code. -/
theorem given_eq_nil (hm : m.isCode = false) (c : Char) : m.given c = [] := by
  cases m <;> first | rfl | simp [isCode] at hm

/-- A text is no code if it stays in comments and string literals up to its end. -/
theorem givenBy_eq_nil (h : ∀ u, u <+: t → (m.after u).isCode = false) : m.givenBy t = [] := by
  induction t generalizing m with
  | nil => rfl
  | cons c r ih =>
    have hm : m.isCode = false := h [] List.nil_prefix
    rw [givenBy, given_eq_nil hm, List.nil_append]
    exact ih fun u hu => h (c :: u) (List.cons_prefix_cons.mpr ⟨rfl, hu⟩)

/-- A comment is no code. -/
theorem isCode_of_isComment (h : m.isComment = true) : m.isCode = false := by
  rcases eq_comment_or_star h with rfl | rfl <;> rfl

/-- Nothing in a comment that does not end is code. -/
theorem givenBy_comment {body : Text} (h : ¬ "*/".toList <:+: body) :
    givenBy .comment body = [] := by
  apply givenBy_eq_nil
  intro u hu
  -- The comment has not ended anywhere in front either.
  exact isCode_of_isComment ((isComment_after u).1 fun hi => h (hi.trans hu.isInfix))

/-- A string literal is no code. -/
theorem codeFrom_quoted {q : Char} (hq : q ≠ '\\') (t : Text) :
    codeFrom (.quoted q) t = codeFrom .code (afterQuote q t) := by
  have hnot (c : Char) : next (.quoted q) c ≠ slash := by
    rw [next]
    split
    · simp
    · split <;> simp
  fun_induction afterQuote q t with
  | case1 => rfl
  | case2 c => simp [codeFrom, givenBy, given, hnot]
  | case3 d r ih =>
    rw [codeFrom_cons, codeFrom_cons, ← ih]
    rfl
  | case4 d r hc =>
    rw [codeFrom_cons]
    simp [given, next, hq]
  | case5 c d r hc hne ih =>
    rw [codeFrom_cons, ← ih]
    simp [given, next, hc, hne]

/-- A complete comment is no code. -/
theorem codeFrom_comment {c rest : Text} (h : comment? t = some (c, rest)) :
    codeFrom .code t = codeFrom .code rest := by
  obtain ⟨body, hc, rfl, hend⟩ := comment?_eq_some_iff.mp h
  have hbody : ¬ "*/".toList <:+: body := fun hi => hend (hi.trans (List.prefix_append _ _).isInfix)
  have hopen := (isComment_after body).1 hbody
  have hgiven : givenBy .code c = [] := by
    have hstart : givenBy .code ("/*".toList ++ body) = givenBy .comment body := rfl
    have hafter : after .code ("/*".toList ++ body) = after .comment body := rfl
    rw [hc, givenBy_append, hstart, hafter, givenBy_comment hbody, List.nil_append]
    rcases eq_comment_or_star hopen with h | h <;> rw [h] <;> rfl
  rw [codeFrom_append, hgiven, after_comment h]
  rfl

/-- A comment that does not end reaches to the end of the text. -/
theorem codeFrom_open_comment {inside : Text} (h : ¬ "*/".toList <:+: inside) :
    codeFrom .code ("/*".toList ++ inside) = [] := by
  have hopen := (isComment_after inside).1 h
  have hgiven : givenBy .code ("/*".toList ++ inside) = givenBy .comment inside := rfl
  have hafter : after .code ("/*".toList ++ inside) = after .comment inside := rfl
  rw [codeFrom, hgiven, hafter, givenBy_comment h, List.nil_append, if_neg]
  intro hslash
  rw [hslash] at hopen
  simp [isComment] at hopen

/-- A solidus that does not open a comment is code. -/
theorem codeFrom_slash (h : ¬ ['*'] <+: t) : codeFrom .slash t = '/' :: codeFrom .code t := by
  cases t with
  | nil => rfl
  | cons d r =>
    have hd : d ≠ '*' := by
      rintro rfl
      exact h ⟨r, rfl⟩
    rw [codeFrom_cons, codeFrom_cons, next, next, if_neg hd, given, given, if_neg hd]
    split <;> rfl

end Mode

/-- The code of a text, skipping whole comments and strings, is its code by modes. -/
theorem codeOnly_eq (t : Text) : codeOnly t = Mode.codeFrom .code t := by
  fun_induction codeOnly t with
  | case1 => rfl
  | case2 c r hc ih =>
    have hq : c ≠ '\\' := by
      rcases hc with rfl | rfl <;> decide
    have hgiven : Mode.given .code c = [] := by
      rcases hc with rfl | rfl <;> rfl
    have hnext : Mode.next .code c = .quoted c := by
      rcases hc with rfl | rfl <;> rfl
    rw [Mode.codeFrom_cons, hgiven, hnext, Mode.codeFrom_quoted hq, ih]
    rfl
  | case3 c r hc _ comment rest h _ ih => rw [Mode.codeFrom_comment h, ih]
  | case4 c r hc inside hnone h =>
    have hend : ¬ "*/".toList <:+: inside := by
      intro hi
      obtain ⟨p, hp⟩ := exists_cutFirst? hi
      rw [comment?, h] at hnone
      simp only at hnone
      rw [hp] at hnone
      simp at hnone
    rw [eq_append_of_after? h, Mode.codeFrom_open_comment hend]
  | case5 c r hc hnone ih =>
    rw [not_or] at hc
    rw [Mode.codeFrom_cons, ih]
    by_cases hslash : c = '/'
    · subst hslash
      have hstar : ¬ ['*'] <+: r := by
        rintro ⟨x, rfl⟩
        simp [after?] at hnone
      have hgiven : Mode.given .code '/' = [] := rfl
      have hnext : Mode.next .code '/' = .slash := rfl
      rw [hgiven, hnext, Mode.codeFrom_slash hstar]
      rfl
    · simp [Mode.given, Mode.next, Mode.afterCode, hslash, hc.1, hc.2]

/-! ## Characters in code -/

/-- The characters by which comments and string literals are told. -/
def spanMarks : List Char := ['/', '*', '"', '\'']

namespace Mode

variable {p : Char → Bool} {c : Char}

/-- The characters of a text that have a property and are read as code. -/
def inCode (p : Char → Bool) (m : Mode) : Text → Text
  | [] => []
  | c :: r => if m.isCode && p c then c :: (m.next c).inCode p r else (m.next c).inCode p r

/-- Of what is known to be code with one more character, only this character can have the
property. -/
theorem filter_given (hp : ∀ c ∈ spanMarks, p c = false) (m : Mode) (c : Char) :
    (m.given c).filter p = if m.isCode && p c then [c] else [] := by
  have hslash : p '/' = false := hp '/' (by decide)
  cases m with
  | code =>
    rw [given]
    split
    · next hc =>
      have hmark : p c = false := hp c (by rcases hc with rfl | rfl | rfl <;> decide)
      simp [hmark]
    · simp [isCode, List.filter_cons]
  | slash =>
    rw [given]
    split
    · next hc => simp [hc, hp '*' (by decide)]
    · split
      · next hc =>
        have hmark : p c = false := hp c (by rcases hc with rfl | rfl | rfl <;> decide)
        simp [hmark, hslash]
      · simp [isCode, List.filter_cons, hslash]
  | comment => rfl
  | star => rfl
  | quoted q => rfl
  | escaped q => rfl

/-- The characters of the code with a property are those that are read as code. -/
theorem filter_codeFrom (hp : ∀ c ∈ spanMarks, p c = false) (m : Mode) (t : Text) :
    (m.codeFrom t).filter p = m.inCode p t := by
  induction t generalizing m with
  | nil =>
    rw [codeFrom, givenBy, List.nil_append]
    split
    · simp [inCode, hp '/' (by decide)]
    · rfl
  | cons c r ih =>
    rw [codeFrom_cons, List.filter_append, filter_given hp, ih, inCode]
    split <;> rfl

/-- The code of a text is what is known of it, and a solidus that waits at its end. -/
theorem codeFrom_eq (m : Mode) (t : Text) :
    m.codeFrom t = m.givenBy t ++ (m.after t).codeFrom [] := by
  simpa using codeFrom_append m t []

/-- Code goes on as code behind any other character. -/
theorem next_of_isCode (hm : m.isCode = true) (hc : c ∉ spanMarks) : m.next c = .code := by
  simp only [spanMarks, List.mem_cons, List.not_mem_nil, or_false, not_or] at hc
  obtain ⟨hslash, hstar, hdouble, hsingle⟩ := hc
  have hcode : afterCode c = .code := by
    rw [afterCode, if_neg hslash, if_neg (not_or.mpr ⟨hdouble, hsingle⟩)]
  rcases eq_code_or_slash hm with rfl | rfl
  · exact hcode
  · rw [next, if_neg hstar, hcode]

/-- Any other character that is code comes behind what was known, and behind a solidus that has
waited. -/
theorem given_of_isCode (hm : m.isCode = true) (hc : c ∉ spanMarks) :
    m.given c = m.codeFrom [] ++ [c] := by
  simp only [spanMarks, List.mem_cons, List.not_mem_nil, or_false, not_or] at hc
  obtain ⟨hslash, hstar, hdouble, hsingle⟩ := hc
  rcases eq_code_or_slash hm with rfl | rfl
  · simp [given, codeFrom, givenBy, hslash, hdouble, hsingle]
  · simp [given, codeFrom, givenBy, hslash, hstar, hdouble, hsingle]

/-- One character behind a text that ends in a comment or a string literal brings no code. -/
theorem codeFrom_singleton (hm : m.isCode = false) (c : Char) : m.codeFrom [c] = [] := by
  have hnext : m.next c ≠ slash := by
    cases m with
    | code => simp [isCode] at hm
    | slash => simp [isCode] at hm
    | comment =>
      rw [next]
      split <;> simp
    | star =>
      rw [next]
      split
      · simp
      · split <;> simp
    | quoted q =>
      rw [next]
      split
      · simp
      · split <;> simp
    | escaped q => simp [next]
  simp [codeFrom, givenBy, given_eq_nil hm, hnext]

end Mode

variable {a b : Text} {c : Char}

/-- A character behind a text is code or not, whatever follows it. -/
theorem codeOnly_append_cons (ha : (Mode.after .code a).isCode = true) (hc : c ∉ spanMarks) :
    codeOnly (a ++ c :: b) = codeOnly a ++ c :: codeOnly b := by
  rw [codeOnly_eq, codeOnly_eq, codeOnly_eq, Mode.codeFrom_append, Mode.codeFrom_cons,
    Mode.given_of_isCode ha hc, Mode.next_of_isCode ha hc, Mode.codeFrom_eq .code a]
  simp

/-- A text ends outside comments and string literals just if a character behind it is code. -/
theorem isCode_after_iff (hc : c ∉ spanMarks) : (Mode.after .code a).isCode = true ↔
    codeOnly (a ++ [c]) = codeOnly a ++ [c] := by
  constructor
  · intro ha
    rw [codeOnly_append_cons ha hc, codeOnly_eq []]
    rfl
  · intro h
    by_contra hm
    rw [Bool.not_eq_true] at hm
    rw [codeOnly_eq, codeOnly_eq, Mode.codeFrom_append, Mode.codeFrom_singleton hm,
      Mode.codeFrom_eq .code a, List.append_assoc, List.append_cancel_left_eq] at h
    simp at h

/-! ## Names behind an at-sign -/

/-- No name follows an at-sign of a text just if none follows its first character as an at-sign, and
none follows an at-sign behind that. -/
theorem firstAtName?_cons_eq_none {c : Char} {r : Text} : firstAtName? (c :: r) = none ↔
    ¬ (c = '@' ∧ r.head?.any isNameChar = true) ∧ firstAtName? r = none := by
  rw [firstAtName?]
  split <;> simp_all

/-- No name follows an at-sign at the end of a text if none does in the whole of it. -/
theorem firstAtName?_right_eq_none {e x : Text} (h : firstAtName? (e ++ x) = none) :
    firstAtName? x = none := by
  induction e with
  | nil => exact h
  | cons c e ih => exact ih (firstAtName?_cons_eq_none.mp h).2

/-- Text without at-signs in front of a text holds no name behind one. -/
theorem firstAtName?_append_of_not_mem {e : Text} (he : '@' ∉ e) (x : Text) :
    firstAtName? (e ++ x) = firstAtName? x := by
  induction e with
  | nil => rfl
  | cons d e ih =>
    simp only [List.mem_cons, not_or] at he
    rw [List.cons_append, firstAtName?, if_neg fun hat => he.1 hat.1.symm, ih he.2]

/-- Whether a name follows an at-sign does not depend on the text behind, if that starts a name
only where it did before. -/
theorem firstAtName?_append {e x y : Text} (h : firstAtName? (e ++ x) = none)
    (hy : firstAtName? y = none)
    (hhead : y.head?.any isNameChar = true → x.head?.any isNameChar = true) :
    firstAtName? (e ++ y) = none ∧
      ((e ++ y).head?.any isNameChar = true → (e ++ x).head?.any isNameChar = true) := by
  induction e with
  | nil => exact ⟨hy, hhead⟩
  | cons c r ih =>
    rw [List.cons_append, firstAtName?_cons_eq_none] at h
    obtain ⟨hnone, himp⟩ := ih h.2
    refine ⟨?_, fun hc => hc⟩
    rw [List.cons_append, firstAtName?_cons_eq_none]
    exact ⟨fun hat => h.1 ⟨hat.1, himp hat.2⟩, hnone⟩

/-- Inert text is code. -/
theorem codeFrom_inert_append {u : Text} (hu : ∀ c ∈ u, Inert c) (t : Text) :
    Mode.codeFrom .code (u ++ t) = u ++ Mode.codeFrom .code t := by
  induction u with
  | nil => rfl
  | cons c r ih =>
    obtain ⟨hc, hr⟩ := List.forall_mem_cons.mp hu
    have hgiven : Mode.given .code c = [c] := by
      rw [Mode.given, if_neg]
      rintro (h | h | h) <;> exact hc.ne (by decide) h
    have hnext : Mode.next .code c = .code := hc.afterCode
    rw [List.cons_append, Mode.codeFrom_cons, hgiven, hnext, ih hr]
    rfl

/-- The class and the space are code. -/
theorem codeFrom_class (hs : ScopeClass scope) (t : Text) :
    Mode.codeFrom .code (scope ++ ' ' :: t) = scope ++ ' ' :: Mode.codeFrom .code t := by
  rw [codeFrom_inert_append hs.inert]
  rfl

/-- Putting a class in brings up no at-rule name. -/
theorem Insertion.firstAtName? (hs : ScopeClass scope) (h : Insertion scope m s t)
    (hnone : firstAtName? (m.codeFrom s) = none) :
    Css.firstAtName? (m.codeFrom t) = none ∧
      ((m.codeFrom t).head?.any isNameChar = true →
        (m.codeFrom s).head?.any isNameChar = true) := by
  induction h with
  | nil => exact ⟨hnone, id⟩
  | keep m c _ ih =>
    rw [Mode.codeFrom_cons] at hnone ⊢
    rw [Mode.codeFrom_cons]
    have hrest := ih (firstAtName?_right_eq_none hnone)
    exact firstAtName?_append hnone hrest.1 hrest.2
  | put c _ _ ih =>
    obtain ⟨r, hr⟩ := hs.exists_cons
    rw [codeFrom_class hs]
    refine ⟨?_, ?_⟩
    · have hclass : '@' ∉ scope ++ [' '] := by
        simp only [List.mem_append, List.mem_singleton, not_or]
        exact ⟨fun hm => (hs.inert _ hm).not_noted (by decide), by decide⟩
      rw [List.append_cons, firstAtName?_append_of_not_mem hclass]
      exact (ih hnone).1
    · intro hany
      have hpoint : isNameChar '.' = false := by decide
      rw [hr, List.cons_append, List.head?_cons, Option.any_some, hpoint] at hany
      simp at hany

/-! ## At-rules -/

/-- All characters of a text without an opening brace are others. -/
theorem forall_ne_brace (h : '{' ∉ t) : ∀ c ∈ t, decide (c ≠ '{') = true :=
  fun _ hc => decide_eq_true (ne_of_mem_of_not_mem hc h)

/-- Nothing is cut off a text without an opening brace. -/
theorem behindBrace_eq_self (h : '{' ∉ t) : behindBrace t = t := by
  have hall := forall_ne_brace (t := t.reverse) (by simpa using h)
  rw [behindBrace, List.takeWhile_eq_self_iff.mpr hall, List.reverse_reverse]

/-- The at-rule of a text whose code has no opening brace is the first name behind an at-sign of
the code. -/
theorem atRule?_eq (h : '{' ∉ codeOnly t) : atRule? t = firstAtName? (codeOnly t) := by
  rw [atRule?, behindBrace_eq_self h]

end StyleSnippet.Css
