import Mathlib.Data.List.Basic
import StyleSnippet.Settings.Config

/-!
# Forests of settings

A list of settings with the settings nested in them is a forest. Every function on forests goes
depth first, and is told here by one equation for a forest that starts with a setting, so that a
proof is an induction on `forest_induction`.

A forest is known by its form, which is what is left without any CSS, and by the CSS of its
settings in depth-first order. Changing the CSS of the first setting that a test accepts changes
one entry of that list and keeps the form.
-/

set_option autoImplicit false

namespace StyleSnippet.Setting

/-! ## Induction -/

mutual

/-- What holds of the empty forest, and of a forest if it holds of what is nested in the first
setting and of the rest, holds of what is nested in a setting. -/
theorem nested_induction {motive : List Setting → Prop} (nil : motive [])
    (cons : ∀ s rest, motive s.nested → motive rest → motive (s :: rest)) :
    ∀ s : Setting, motive s.nested
  | ⟨_, _, _, _, _, nested, _⟩ => forest_induction nil cons nested

/-- What holds of the empty forest, and of a forest if it holds of what is nested in the first
setting and of the rest, holds of every forest. -/
theorem forest_induction {motive : List Setting → Prop} (nil : motive [])
    (cons : ∀ s rest, motive s.nested → motive rest → motive (s :: rest)) :
    ∀ settings : List Setting, motive settings
  | [] => nil
  | s :: rest => cons s rest (nested_induction nil cons s) (forest_induction nil cons rest)

end

variable {test : Setting → Bool} {change : Setting → Setting} {settings settings' : List Setting}

/-! ## Visits -/

/-- No settings are visited in an empty forest. -/
@[simp] theorem depthFirstAll_nil : depthFirstAll [] = [] := rfl

/-- The first setting is visited first, then what is nested in it, then the rest. -/
@[simp] theorem depthFirstAll_cons (s : Setting) (rest : List Setting) :
    depthFirstAll (s :: rest) = s :: (depthFirstAll s.nested ++ depthFirstAll rest) := by
  cases s
  rfl

namespace Visit

/-- The next setting is the first one that the pending forests hold, and the others stay pending. -/
theorem flatMap_next? {l l' : List (List Setting)} {s : Setting} (h : next? l = some (s, l')) :
    l.flatMap depthFirstAll = s :: l'.flatMap depthFirstAll := by
  induction l with
  | nil => simp [next?] at h
  | cons top below ih =>
    cases top with
    | nil =>
      rw [next?] at h
      simpa using ih h
    | cons t rest =>
      simp only [next?, Option.some.injEq, Prod.mk.injEq] at h
      obtain ⟨rfl, rfl⟩ := h
      cases hn : t.nested <;> simp [hn]

/-- Where there is no next setting, the pending forests hold none. -/
theorem flatMap_of_next?_none {l : List (List Setting)} (h : next? l = none) :
    l.flatMap depthFirstAll = [] := by
  induction l with
  | nil => rfl
  | cons top below ih =>
    cases top with
    | nil =>
      rw [next?] at h
      simpa using ih h
    | cons t rest => simp [next?] at h

/-- A visit comes by the settings of the pending lists, depth first. -/
theorem toList_eq (v : Visit) : v.toList = v.pending.flatMap depthFirstAll := by
  fun_induction toList v with
  | case1 v h => rw [flatMap_of_next?_none h]
  | case2 v s pending h ih => rw [flatMap_next? h, ih]

end Visit

/-! ## CSS -/

mutual

/-- A setting with other CSS, and other CSS in all settings nested in it. -/
def withCss (css : Setting → Option Text) : Setting → Setting
  | ⟨id, title, description, kind, css₀, nested, extra⟩ =>
    ⟨id, title, description, kind, css ⟨id, title, description, kind, css₀, nested, extra⟩,
      withCssAll css nested, extra⟩

/-- A forest with other CSS in all its settings. -/
def withCssAll (css : Setting → Option Text) : List Setting → List Setting
  | [] => []
  | s :: rest => withCss css s :: withCssAll css rest

end

/-- The form of a forest: the forest without any CSS. -/
def formAll (settings : List Setting) : List Setting := withCssAll (fun _ => none) settings

/-- The CSS of all settings, depth first. -/
def cssAll (settings : List Setting) : List (Option Text) := (depthFirstAll settings).map (·.css)

/-- There is nothing to give CSS to in an empty forest. -/
@[simp] theorem withCssAll_nil (css : Setting → Option Text) : withCssAll css [] = [] := rfl

/-- CSS is given to the first setting, to what is nested in it, and to the rest. -/
@[simp] theorem withCssAll_cons (css : Setting → Option Text) (s : Setting)
    (rest : List Setting) : withCssAll css (s :: rest) =
      { s with css := css s, nested := withCssAll css s.nested } :: withCssAll css rest := by
  cases s
  rfl

/-- The form of an empty forest is empty. -/
@[simp] theorem formAll_nil : formAll [] = [] := rfl

/-- The form of a forest is made setting by setting. -/
@[simp] theorem formAll_cons (s : Setting) (rest : List Setting) :
    formAll (s :: rest) = { s with css := none, nested := formAll s.nested } :: formAll rest :=
  withCssAll_cons _ s rest

/-- An empty forest holds no CSS. -/
@[simp] theorem cssAll_nil : cssAll [] = [] := rfl

/-- The CSS of the first setting comes first, then that of what is nested in it, then that of the
rest. -/
@[simp] theorem cssAll_cons (s : Setting) (rest : List Setting) :
    cssAll (s :: rest) = s.css :: (cssAll s.nested ++ cssAll rest) := by
  simp [cssAll]

/-- There is one place for CSS in every setting. -/
@[simp] theorem length_cssAll (settings : List Setting) :
    (cssAll settings).length = (depthFirstAll settings).length := by
  simp [cssAll]

/-- Giving settings other CSS keeps the form. -/
@[simp] theorem formAll_withCssAll (css : Setting → Option Text) (settings : List Setting) :
    formAll (withCssAll css settings) = formAll settings := by
  induction settings using forest_induction with
  | nil => rfl
  | cons s rest ihn ihr => simp [ihn, ihr]

/-- The CSS that settings are given. -/
@[simp] theorem cssAll_withCssAll (css : Setting → Option Text) (settings : List Setting) :
    cssAll (withCssAll css settings) = (depthFirstAll settings).map css := by
  induction settings using forest_induction with
  | nil => rfl
  | cons s rest ihn ihr => simp [ihn, ihr]

/-- Giving settings other CSS keeps them in the same order. -/
theorem depthFirstAll_withCssAll (css : Setting → Option Text) (settings : List Setting) :
    depthFirstAll (withCssAll css settings) = (depthFirstAll settings).map fun s =>
      { s with css := css s, nested := withCssAll css s.nested } := by
  induction settings using forest_induction with
  | nil => rfl
  | cons s rest ihn ihr => simp [ihn, ihr]

/-- The settings of a form are the settings without CSS, in the same order. -/
theorem depthFirstAll_formAll (settings : List Setting) : depthFirstAll (formAll settings) =
    (depthFirstAll settings).map fun s => { s with css := none, nested := formAll s.nested } :=
  depthFirstAll_withCssAll _ settings

/-- Forests of one form hold as many settings. -/
theorem length_depthFirstAll (h : formAll settings = formAll settings') :
    (depthFirstAll settings).length = (depthFirstAll settings').length := by
  have hlen := congrArg (fun l => (depthFirstAll l).length) h
  simpa [depthFirstAll_formAll] using hlen

/-- What is told of a setting without its CSS is told alike in forests of one form. -/
theorem map_depthFirstAll {α : Type} {f : Setting → α}
    (hf : ∀ s : Setting, f { s with css := none, nested := formAll s.nested } = f s)
    (h : formAll settings = formAll settings') :
    (depthFirstAll settings).map f = (depthFirstAll settings').map f := by
  have hmap (l : List Setting) : (depthFirstAll (formAll l)).map f = (depthFirstAll l).map f := by
    rw [depthFirstAll_formAll, List.map_map]
    exact List.map_congr_left fun s _ => hf s
  rw [← hmap settings, ← hmap settings', h]

/-- A forest is known by its form and its CSS. -/
theorem eq_of_formAll_eq (hform : formAll settings = formAll settings')
    (hcss : cssAll settings = cssAll settings') : settings = settings' := by
  induction settings using forest_induction generalizing settings' with
  | nil =>
    cases settings' with
    | nil => rfl
    | cons s rest => simp at hform
  | cons s rest ihn ihr =>
    cases settings' with
    | nil => simp at hform
    | cons s' rest' =>
      simp only [formAll_cons, List.cons.injEq] at hform
      simp only [cssAll_cons, List.cons.injEq] at hcss
      obtain ⟨hs, hrest⟩ := hform
      have hnested : formAll s.nested = formAll s'.nested := congrArg Setting.nested hs
      obtain ⟨hcssn, hcssr⟩ := List.append_inj hcss.2 (by simpa using length_depthFirstAll hnested)
      have heq : s = s' := by
        obtain ⟨id, title, description, kind, css, nested, extra⟩ := s
        obtain ⟨id', title', description', kind', css', nested', extra'⟩ := s'
        have hsame := ihn hnested hcssn
        simp only [mk.injEq] at hs
        simp only at hsame hcss
        simp [hs, hsame, hcss]
      rw [heq, ihr hrest hcssr]

/-! ## Changing the first setting of some kind -/

/-- No setting is found in an empty forest. -/
@[simp] theorem updateFirstOf?_nil : updateFirstOf? test change [] = none := rfl

/-- The first setting is looked at first, then what is nested in it, then the rest. -/
theorem updateFirstOf?_cons (s : Setting) (rest : List Setting) :
    updateFirstOf? test change (s :: rest) =
      if test s then some (change s :: rest)
      else match updateFirstOf? test change s.nested with
        | some nested => some ({ s with nested := nested } :: rest)
        | none => (updateFirstOf? test change rest).map (s :: ·) := by
  have hone : updateFirst? test change s =
      if test s then some (change s)
      else (updateFirstOf? test change s.nested).map fun nested => { s with nested := nested } := by
    cases s
    rfl
  rw [updateFirstOf?, hone]
  split
  · next s' h =>
    by_cases hs : test s = true
    · simp only [hs, if_true, Option.some.injEq] at h
      simp [hs, h]
    · simp only [hs] at h
      cases hn : updateFirstOf? test change s.nested <;> simp_all
  · next h =>
    by_cases hs : test s = true
    · simp [hs] at h
    · simp only [hs] at h
      cases hn : updateFirstOf? test change s.nested <;> simp_all

/-- Nothing is changed just when the test accepts no setting. -/
theorem updateFirstOf?_eq_none : updateFirstOf? test change settings = none ↔
    ∀ s ∈ depthFirstAll settings, test s = false := by
  induction settings using forest_induction with
  | nil => simp
  | cons s rest ihn ihr =>
    rw [updateFirstOf?_cons, depthFirstAll_cons, List.forall_mem_cons, List.forall_mem_append]
    by_cases hs : test s = true
    · simp [hs]
    · rw [Bool.not_eq_true] at hs
      cases hn : updateFirstOf? test change s.nested with
      | some nested =>
        have hsome := ihn.not.mp (by simp [hn])
        simp [hs, hsome]
      | none =>
        have hnone := ihn.mp hn
        simp only [hs, Bool.false_eq_true, if_false, Option.map_eq_none_iff, true_and,
          iff_true_intro hnone]
        exact ihr

/-- Changing the CSS of the first setting that a test accepts keeps the form and changes one
entry of the list of CSS. -/
theorem of_updateFirstOf? {f : Option Text → Option Text}
    (hchange : ∀ s : Setting, change s = { s with css := f s.css })
    (h : updateFirstOf? test change settings = some settings') :
    formAll settings' = formAll settings ∧ ∃ l₁ s l₂, depthFirstAll settings = l₁ ++ s :: l₂ ∧
      (∀ x ∈ l₁, test x = false) ∧ test s = true ∧
      cssAll settings' = l₁.map (·.css) ++ f s.css :: l₂.map (·.css) := by
  induction settings using forest_induction generalizing settings' with
  | nil => simp at h
  | cons s rest ihn ihr =>
    rw [updateFirstOf?_cons] at h
    by_cases hs : test s = true
    · rw [if_pos hs, Option.some.injEq] at h
      subst h
      refine ⟨by simp [hchange], [], s, _, depthFirstAll_cons s rest, by simp, hs, ?_⟩
      simp [hchange, cssAll]
    · rw [if_neg hs] at h
      rw [Bool.not_eq_true] at hs
      cases hn : updateFirstOf? test change s.nested with
      | some nested =>
        -- It is nested in the first setting.
        rw [hn] at h
        simp only [Option.some.injEq] at h
        obtain ⟨hform, l₁, x, l₂, hl, hbefore, hx, hcss⟩ := ihn hn
        subst h
        refine ⟨by simp [hform], s :: l₁, x, l₂ ++ depthFirstAll rest, by simp [hl], ?_, hx, ?_⟩
        · simpa [hs] using hbefore
        · rw [cssAll_cons, hcss]
          simp [cssAll]
      | none =>
        -- It comes behind the first setting and all that is nested in that.
        rw [hn] at h
        simp only [Option.map_eq_some_iff] at h
        obtain ⟨rest', hrest, rfl⟩ := h
        obtain ⟨hform, l₁, x, l₂, hl, hbefore, hx, hcss⟩ := ihr hrest
        refine ⟨by simp [hform], s :: (depthFirstAll s.nested ++ l₁), x, l₂, by simp [hl], ?_, hx,
          ?_⟩
        · intro y hy
          rw [List.mem_cons, List.mem_append] at hy
          rcases hy with rfl | hy | hy
          · exact hs
          · exact updateFirstOf?_eq_none.mp hn y hy
          · exact hbefore y hy
        · rw [cssAll_cons, hcss]
          simp [cssAll]

end StyleSnippet.Setting
