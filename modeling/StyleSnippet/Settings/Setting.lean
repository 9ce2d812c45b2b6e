import StyleSnippet.Settings.Kind

/-!
# Settings

A setting has an id, a title, the fields of its kind, and the keys of the settings block that
are not fields. It may own a piece of CSS and may hold nested settings, so a list of settings is
a forest. The forest is visited depth first, each setting before the ones nested in it.
-/

set_option autoImplicit false

namespace StyleSnippet

/-- One setting. -/
structure Setting where
  id : Text
  title : Text
  description : Option Text
  kind : SettingKind
  /-- The CSS that the setting owns, not confined to any class. -/
  css : Option Text
  /-- The settings nested in this one. -/
  nested : List Setting
  /-- The entries of the setting's mapping that are not fields, in order. -/
  extra : Yaml.Entries
  deriving Repr

namespace Setting

/-- A new setting of a type. -/
def new (type : SettingType) (id : Text) : Setting :=
  { id := id
    title := "New Setting"
    description := some []
    kind := SettingKind.initial type
    css := none
    nested := []
    extra := [] }

/-- The type of a setting. -/
def type (s : Setting) : SettingType := s.kind.type

/-- Whether a setting is a heading. -/
def isHeading (s : Setting) : Bool := s.type = .heading

/-- The CSS of a setting, trimmed, unless it is blank. -/
def fragment? (s : Setting) : Option Text := (s.css.map Text.trim).filter fun css => !css.isEmpty

/-- The title that heads the setting's CSS, which is the id of a setting without a title. -/
def displayTitle (s : Setting) : Text := if Text.isAllBlank s.title then s.id else s.title

/-- The reference to the custom property that the setting drives, if it drives one. -/
def cssVariable? (s : Setting) : Option Text :=
  if s.type.isVariable then some ("var(--" ++ s.id ++ ")") else none

/-- Adds a piece of CSS behind the CSS that the setting has, a blank line between them. -/
def appendCss (content : Text) (s : Setting) : Setting :=
  { s with css := some (match s.fragment? with
      | some css => if content.isEmpty then css else css ++ "\n\n" ++ content
      | none => content) }

mutual

/-- A setting and everything nested in it, depth first. -/
def depthFirst : Setting → List Setting
  | ⟨id, title, description, kind, css, nested, extra⟩ =>
    ⟨id, title, description, kind, css, nested, extra⟩ :: depthFirstAll nested

/-- A forest, depth first. -/
def depthFirstAll : List Setting → List Setting
  | [] => []
  | s :: rest => depthFirst s ++ depthFirstAll rest

end

mutual

/-- Changes the first setting, depth first, that a test accepts; none if it accepts none. -/
def updateFirst? (test : Setting → Bool) (change : Setting → Setting) :
    Setting → Option Setting
  | ⟨id, title, description, kind, css, nested, extra⟩ =>
    if test ⟨id, title, description, kind, css, nested, extra⟩ then
      some (change ⟨id, title, description, kind, css, nested, extra⟩)
    else (updateFirstOf? test change nested).map fun nested' =>
      ⟨id, title, description, kind, css, nested', extra⟩

/-- Changes the first setting of a forest that a test accepts; none if it accepts none. -/
def updateFirstOf? (test : Setting → Bool) (change : Setting → Setting) :
    List Setting → Option (List Setting)
  | [] => none
  | s :: rest =>
    match updateFirst? test change s with
    | some s' => some (s' :: rest)
    | none => (updateFirstOf? test change rest).map (s :: ·)

end

/-- The rest of a depth-first visit: lists of settings that are still to be visited, the one to
go on with first. -/
structure Visit where
  pending : List (List Setting)

namespace Visit

/-- The visit of a forest, from its start. -/
def start (settings : List Setting) : Visit := ⟨[settings]⟩

/-- The number of settings still to be visited. -/
def remaining (v : Visit) : Nat := (v.pending.flatMap depthFirstAll).length

/-- The next setting of a visit, and the visit after it. -/
def next? : List (List Setting) → Option (Setting × List (List Setting))
  | [] => none
  | [] :: below => next? below
  | (s :: rest) :: below =>
    some (s, if s.nested.isEmpty then rest :: below else s.nested :: rest :: below)

/-- Each step leaves less of the settings to visit. -/
theorem remaining_next {l l' : List (List Setting)} {s : Setting} (h : next? l = some (s, l')) :
    remaining ⟨l'⟩ < remaining ⟨l⟩ := by
  induction l with
  | nil => simp [next?] at h
  | cons top below ih =>
    cases top with
    | nil => simpa [remaining, depthFirstAll] using ih (by simpa [next?] using h)
    | cons t rest =>
      obtain ⟨id, title, description, kind, css, nested, extra⟩ := t
      simp only [next?, Option.some.injEq, Prod.mk.injEq] at h
      obtain ⟨rfl, rfl⟩ := h
      cases nested <;>
        simp only [remaining, depthFirstAll, depthFirst, List.isEmpty_nil, List.isEmpty_cons,
          if_true, Bool.false_eq_true, if_false, List.flatMap_cons, List.length_append,
          List.length_cons, List.length_nil] <;> omega

/-- The settings of a visit, in order. -/
def toList (v : Visit) : List Setting :=
  match _h : next? v.pending with
  | none => []
  | some (s, pending) => s :: toList ⟨pending⟩
termination_by v.remaining
decreasing_by exact remaining_next _h

end Visit

end Setting

end StyleSnippet
