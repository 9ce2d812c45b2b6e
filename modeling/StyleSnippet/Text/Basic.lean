import StyleSnippet.Text.Blank

/-!
# Text

Snippets, stylesheets and settings are all read character by character, so text is the list
of its characters: every scan is then a recursion on the list and every cut a pair of lists
whose concatenation is the whole.

The module holds the cuts that the rest of the library is written with: trimming, lines and
words, prefixes, and the first occurrence of one text in another.
-/

set_option autoImplicit false

namespace StyleSnippet

/-- Text, as the list of its characters. -/
abbrev Text := List Char

/-- A literal is a text. -/
instance : Coe String Text := ⟨String.toList⟩

/-- Texts are compared character by character. -/
instance : LawfulBEq Text := inferInstance

namespace Text

/-! ### Trimming -/

/-- Text without the white space at its start. -/
def trimStart (t : Text) : Text := t.dropWhile isBlank

/-- Text without the white space at its end. -/
def trimEnd (t : Text) : Text := (t.reverse.dropWhile isBlank).reverse

/-- Text without the white space at its two ends. -/
def trim (t : Text) : Text := trimEnd (trimStart t)

/-- Whether text holds nothing but white space. -/
def isAllBlank (t : Text) : Bool := t.all isBlank

/-- Whether text ends in the given suffix. -/
def endsWith (suffix t : Text) : Bool := suffix.isSuffixOf t

/-! ### Lines and words -/

/-- The pieces of a text between its line feeds. There is always at least one. -/
def pieces : Text → List Text
  | [] => [[]]
  | c :: r =>
    if c = '\n' then [] :: pieces r
    else match pieces r with
      | [] => [[c]]
      | p :: ps => (c :: p) :: ps

/-- A line without the carriage return that ends it. -/
def dropReturn (line : Text) : Text :=
  if line.getLast? = some '\r' then line.dropLast else line

/-- The lines of a text. A line ends at a line feed, one carriage return before which belongs
to the line end; text after the last line feed is a line unless it is empty. -/
def lines (t : Text) : List Text :=
  let whole := (pieces t).dropLast.map dropReturn
  match (pieces t).getLast? with
  | some (c :: r) => whole ++ [c :: r]
  | _ => whole

/-- The words of a text, which are its maximal runs of characters that are not white space. -/
def words : Text → List Text
  | [] => []
  | c :: r =>
    if isBlank c then words r
    else match r with
      | [] => [[c]]
      | d :: _ =>
        if isBlank d then [c] :: words r
        else match words r with
          | [] => [[c]]
          | w :: ws => (c :: w) :: ws

/-! ### Prefixes and occurrences -/

/-- What follows the given prefix, if text starts with it. -/
def after? : (start : Text) → Text → Option Text
  | [], t => some t
  | p :: ps, c :: cs => if p = c then after? ps cs else none
  | _ :: _, [] => none

/-- A text that starts with another one is that one and what follows it. -/
theorem eq_append_of_after? {start t rest : Text} (h : after? start t = some rest) :
    t = start ++ rest := by
  induction start generalizing t with
  | nil => simpa [after?] using h
  | cons p ps ih =>
    cases t with
    | nil => simp [after?] at h
    | cons c cs =>
      simp only [after?] at h
      split at h
      · next hpc => rw [ih h, hpc]; rfl
      · simp at h

/-- What follows a start of a text is shorter than the text by that start. -/
theorem after?_length {start t rest : Text} (h : after? start t = some rest) :
    rest.length + start.length = t.length := by
  rw [eq_append_of_after? h, List.length_append, Nat.add_comm]

/-- The text before the first occurrence of `needle` and the text after that occurrence. -/
def cutFirst? (needle : Text) : Text → Option (Text × Text)
  | [] => (after? needle []).map fun rest => ([], rest)
  | c :: r =>
    match after? needle (c :: r) with
    | some rest => some ([], rest)
    | none => (cutFirst? needle r).map fun p => (c :: p.1, p.2)

/-- A text is cut into what stands in front of the needle and what stands behind it. -/
theorem eq_of_cutFirst? {needle t before rest : Text}
    (h : cutFirst? needle t = some (before, rest)) : t = before ++ needle ++ rest := by
  induction t generalizing before with
  | nil =>
    simp only [cutFirst?, Option.map_eq_some_iff, Prod.mk.injEq] at h
    obtain ⟨r, hr, rfl, rfl⟩ := h
    simpa using eq_append_of_after? hr
  | cons c r ih =>
    simp only [cutFirst?] at h
    split at h
    · next hr =>
      simp only [Option.some.injEq, Prod.mk.injEq] at h
      obtain ⟨rfl, rfl⟩ := h
      simpa using eq_append_of_after? hr
    · simp only [Option.map_eq_some_iff, Prod.mk.injEq] at h
      obtain ⟨p, hp, rfl, rfl⟩ := h
      simpa using ih hp

/-- Whether `needle` occurs in a text. -/
def contains (needle t : Text) : Bool := (cutFirst? needle t).isSome

/-! ### Sizes -/

/-- The number of bytes that a text takes in UTF-8. -/
def utf8Length : Text → Nat
  | [] => 0
  | c :: r => c.utf8Size + utf8Length r

/-- The empty text takes no bytes. -/
@[simp] theorem utf8Length_nil : utf8Length [] = 0 := rfl

/-- A text takes the bytes of its first character and of the rest. -/
@[simp] theorem utf8Length_cons (c : Char) (t : Text) :
    utf8Length (c :: t) = c.utf8Size + utf8Length t := rfl

/-- Two texts together take the bytes of both. -/
@[simp] theorem utf8Length_append (s t : Text) :
    utf8Length (s ++ t) = utf8Length s + utf8Length t := by
  induction s with
  | nil => simp
  | cons c r ih => simp [ih, Nat.add_assoc]

/-- The order of the characters does not matter to the bytes that they take. -/
theorem utf8Length_reverse (t : Text) : utf8Length t.reverse = utf8Length t := by
  induction t with
  | nil => rfl
  | cons c r ih => simp [ih, Nat.add_comm]

/-- The first `n` bytes of a text and the text after them, if a character or the text ends there. -/
def cutBytes? : Nat → Text → Option (Text × Text)
  | n, [] => if n = 0 then some ([], []) else none
  | n, c :: r =>
    if n = 0 then some ([], c :: r)
    else if n < c.utf8Size then none
    else (cutBytes? (n - c.utf8Size) r).map fun p => (c :: p.1, p.2)

/-- A text is cut behind as many bytes as its front takes. -/
theorem cutBytes?_append (s t : Text) : cutBytes? (utf8Length s) (s ++ t) = some (s, t) := by
  induction s with
  | nil => cases t <;> rfl
  | cons c r ih =>
    have hpos := Char.utf8Size_pos c
    rw [List.cons_append, cutBytes?, utf8Length_cons, if_neg (by omega), if_neg (by omega),
      Nat.add_sub_cancel_left, ih]
    rfl

/-- The text from byte `start` up to byte `stop`, if characters start at both. -/
def slice? (start stop : Nat) (t : Text) : Option Text := do
  let (upTo, _) ← cutBytes? stop t
  let (_, inside) ← cutBytes? start upTo
  return inside

/-- The slice between two places is what stands between them. -/
theorem slice?_append (s t u : Text) :
    slice? (utf8Length s) (utf8Length s + utf8Length t) (s ++ t ++ u) = some t := by
  have hstop := cutBytes?_append (s ++ t) u
  rw [utf8Length_append] at hstop
  rw [slice?, hstop]
  simp [cutBytes?_append]

/-- The decimal digits of a number. -/
def ofNat (n : Nat) : Text := Nat.toDigits 10 n

end Text

end StyleSnippet
