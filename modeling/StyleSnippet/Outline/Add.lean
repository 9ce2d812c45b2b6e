import StyleSnippet.Settings.Setting

/-!
# Adding a setting

A new setting goes to the end of the list. Its id is made of its type and the time, and of a
number from two on when a setting has that id already.
-/

set_option autoImplicit false

namespace StyleSnippet.Outline

/-- The ids of all settings, depth first. -/
def ids (settings : List Setting) : List Text :=
  (Setting.Visit.start settings).toList.map fun s => s.id

/-- The id that a new setting gets if it is free. -/
def baseId (type : SettingType) (millis : Nat) : Text :=
  "new-" ++ type.name ++ '-' :: Text.ofNat millis

/-- An id with a number behind it. -/
def numberedId (base : Text) (n : Nat) : Text := base ++ '-' :: Text.ofNat n

/-- The first free id among a given one and its numbered ones. Of one more candidates than there
are taken ids, one is free. -/
def freeId (taken : List Text) (base : Text) : Text :=
  let candidates := base :: (List.range taken.length).map fun i => numberedId base (i + 2)
  (candidates.find? (· ∉ taken)).getD base

/-- The id that a new setting gets. -/
def newId (type : SettingType) (millis : Nat) (settings : List Setting) : Text :=
  freeId (ids settings) (baseId type millis)

/-- Adds a new setting of a type at a time, which is told in milliseconds. -/
def add (type : SettingType) (millis : Nat) (settings : List Setting) : List Setting :=
  settings ++ [Setting.new type (newId type millis settings)]

end StyleSnippet.Outline
