import StyleSnippet.Proofs.Schema.Decoded
import StyleSnippet.Proofs.Schema.Items
import StyleSnippet.Proofs.Settings.Places

/-!
# Foreign entries

The entries of a mapping that are no fields of the place where it stands are foreign. Reading a
settings block and writing it again keeps them all, each in the mapping of the same place: behind
the fields, which are written as without them, and before the settings nested there.

What is read and what is written are compared place by place. The settings of what is read stand
where their mappings do, and so do the mappings that are written for them.
-/

set_option autoImplicit false

namespace StyleSnippet.Schema

open Yaml Setting

variable {v w : Value} {es : Entries} {c : Config} {s : Setting} {settings : List Setting}
  {place : List Nat}

/-! ## Foreign entries at a place -/

/-- The path to the setting at a place. -/
def placePath : List Nat → Path
  | [] => []
  | i :: place => .field "settings" :: .item i :: placePath place

/-- The keys that are fields of a mapping at a place: those of the root, or those of a setting of
the type that the mapping says. -/
def keysAt? (es : Entries) : List Nat → Option (List Text)
  | [] => some rootKeys
  | _ :: _ => do
    let name ← scalarText? (← es.get? "type")
    let type ← SettingType.ofName? name
    return commonKeys ++ kindKeys type

/-- The fields that are written at a place, settings aside. -/
def fieldsAt? (c : Config) (place : List Nat) : Option Entries :=
  match place with
  | [] => some (Config.encodeRoot c)
  | _ :: _ => (at? c.settings place).map fun s => encodeFields s.id s.title s.description s.kind

/-- Whether an entry is, through tags, under none of the given keys. -/
def IsForeign (keys : List Text) (e : Value × Value) : Prop := ∀ key ∈ e.1.text?, key ∉ keys

/-- Whether an entry is foreign is decided by a look at its key. -/
instance (keys : List Text) (e : Value × Value) : Decidable (IsForeign keys e) :=
  inferInstanceAs (Decidable (∀ key ∈ e.1.text?, key ∉ keys))

/-- Whether entries are the given fields, behind them the foreign ones of a mapping in their order,
and behind those its settings, if there are any. What stands under a field is what was put there. -/
structure Keeps (keys : List Text) (es fields out : Entries) : Prop where
  declared : Declared (keys.erase "settings") fields
  split : ∃ nested, out = fields ++ es.filter (IsForeign keys) ++ nested ∧
    (nested = [] ∨ ∃ v, nested = [entry "settings" v])
  field : ∀ key ∈ keys, key ≠ "settings".toList → out.get? key = fields.get? key

/-- Whether a mapping is written with the foreign entries of the one that was read at a place. -/
def KeepsAt (c : Config) (place : List Nat) (w out : Value) : Prop :=
  ∃ es keys fields written, w.entries? = some es ∧ keysAt? es place = some keys ∧
    fieldsAt? c place = some fields ∧ out = .map written ∧ Keeps keys es fields written

/-- The entries that are kept of a mapping are the foreign ones. -/
theorem extraEntries_eq_filter (keys : List Text) (es : Entries) :
    extraEntries keys es = es.filter (IsForeign keys) := by
  unfold extraEntries
  congr 1
  funext e
  split
  · next key hkey => simp [IsForeign, hkey]
  · next hkey => simp [IsForeign, hkey]

/-! ## Where settings are read -/

section Rel

variable {α β γ δ : Type} {R : α → β → Prop} {S : γ → δ → Prop} {x : Option α} {y : Option β}

/-- Related options lead on to related options. -/
theorem rel_bind {k : α → Option γ} {l : β → Option δ} (h : Option.Rel R x y)
    (hk : ∀ a b, R a b → Option.Rel S (k a) (l b)) :
    Option.Rel S (x.bind k) (y.bind l) := by
  cases h with
  | none => exact .none
  | some hab => exact hk _ _ hab

/-- What the second of two related options holds can be changed along with the relation. -/
theorem rel_map_right {f : β → δ} {T : α → δ → Prop} (h : Option.Rel R x y)
    (hf : ∀ a b, y = some b → R a b → T a (f b)) : Option.Rel T x (y.map f) := by
  cases h with
  | none => exact .none
  | some hab => exact .some (hf _ _ rfl hab)

end Rel

/-- Whether a setting is read from a value. -/
def Reads (w : Value) (s : Setting) : Prop := readSetting [] w = .ok s

/-- A setting that is read somewhere is read from its value on its own. -/
theorem reads_of_readSetting {path : Path} (h : readSetting path w = .ok s) : Reads w s :=
  (readsAlone_readSetting w).eq_ok_iff.mp h

/-- Each item of a list is read as the setting at its position, and there are no others. -/
theorem rel_readItems {path : Path} {i : Nat} {items : List Value}
    (h : readItems readSetting path i items = .ok settings) (j : Nat) :
    Option.Rel Reads items[j]? settings[j]? := by
  induction items generalizing i settings j with
  | nil =>
    cases h
    exact .none
  | cons w rest ih =>
    obtain ⟨s, hs, h⟩ := bind_eq_ok.mp h
    obtain ⟨settings, hsettings, h⟩ := bind_eq_ok.mp h
    cases h
    cases j with
    | zero => exact .some (reads_of_readSetting hs)
    | succ j => exact ih hsettings j

/-- A path of a key and a position leads to an item of the list there. -/
theorem follow?_fieldItem (es : Entries) (key : Text) (i : Nat) :
    (Value.map es).follow? [.field key, .item i] =
      (es.get? key).bind fun w => w.part? (.item i) := by
  rw [Value.follow?_cons, Value.part?_field (Value.entries?_map es)]
  simp only [Value.follow?_singleton]

/-- Each item of the list of settings is read as the setting at its position, and there are no
others. -/
theorem rel_items {path : Path} (h : Fields.items ⟨es, path⟩ "settings" readSetting = .ok settings)
    (i : Nat) :
    Option.Rel Reads ((Value.map es).follow? [.field "settings", .item i]) settings[i]? := by
  rw [follow?_fieldItem]
  unfold Fields.items at h
  split at h
  · next hget =>
    cases h
    obtain hnone | hnull := Fields.get?_eq_none_iff.mp hget
    · rw [hnone]
      exact .none
    · rw [hnull]
      exact .none
  · next items hget =>
    rw [(Fields.get?_eq_some_iff.mp hget).1]
    exact rel_readItems h i
  · cases h

/-- A setting is read from the entries of a mapping. -/
theorem Reads.exists_settingOf (h : Reads w s) :
    ∃ es, w.entries? = some es ∧ settingOf ⟨es, []⟩ = .ok s := by
  unfold Reads readSetting at h
  rw [decodeSetting_eq] at h
  split at h
  · cases h
  · next es hes => exact ⟨es, hes, h⟩

/-- What a setting that is read has from the mapping that it is read from. -/
theorem exists_of_settingOf {path : Path} (h : settingOf ⟨es, path⟩ = .ok s) :
    Fields.type ⟨es, path⟩ = .ok s.type ∧
      s.extra = extraEntries (commonKeys ++ kindKeys s.type) es ∧
      Fields.items ⟨es, path⟩ "settings" readSetting = .ok s.nested := by
  unfold settingOf at h
  simp only [bind_eq_ok, pure, Except.pure, Except.ok.injEq] at h
  obtain ⟨type, htype, kind, hkind, _, -, _, -, _, -, _, -, nested, hnested, rfl⟩ := h
  obtain rfl := type_of_kind hkind
  exact ⟨htype, rfl, hnested⟩

/-- A config has the foreign entries and the settings of the mapping that it is read from. -/
theorem exists_of_decode (h : decode v = .ok c) : ∃ es, v.entries? = some es ∧
    c.extra = extraEntries rootKeys es ∧
    Fields.items ⟨es, []⟩ "settings" readSetting = .ok c.settings := by
  unfold decode at h
  split at h
  · cases h
  · next es hes =>
    simp only [bind_eq_ok, pure, Except.pure, Except.ok.injEq, decodeNested_eq] at h
    obtain ⟨_, -, _, -, settings, hsettings, rfl⟩ := h
    exact ⟨es, hes, rfl, hsettings⟩

/-- A setting stands at a place just if the path there leads to a value that it is read from, if
that holds below the first position. -/
theorem rel_at? {path : Path} (hes : v.entries? = some es)
    (hitems : Fields.items ⟨es, path⟩ "settings" readSetting = .ok settings)
    (hrest : ∀ w s, Reads w s → Option.Rel Reads (w.follow? (placePath place)) (s.below? place))
    (i : Nat) :
    Option.Rel Reads (v.follow? (placePath (i :: place))) (at? settings (i :: place)) := by
  have hsplit : placePath (i :: place) = [.field "settings", .item i] ++ placePath place := rfl
  rw [Value.follow?_of_entries? hes (by simp [placePath]), hsplit, Value.follow?_append]
  exact rel_bind (rel_items hitems i) hrest

/-- The settings in a setting that is read are read where they stand. -/
theorem Reads.rel_below (h : Reads w s) (place : List Nat) :
    Option.Rel Reads (w.follow? (placePath place)) (s.below? place) := by
  induction place generalizing w s with
  | nil => exact .some h
  | cons i place ih =>
    obtain ⟨es, hes, hs⟩ := h.exists_settingOf
    obtain ⟨-, -, hitems⟩ := exists_of_settingOf hs
    exact rel_at? hes hitems (fun w s hs => ih hs) i

/-- A setting of a config stands at a place just if the path there leads to a value that it is read
from. -/
theorem rel_of_decode (h : decode v = .ok c) (i : Nat) (place : List Nat) :
    Option.Rel Reads (v.follow? (placePath (i :: place))) (at? c.settings (i :: place)) := by
  obtain ⟨es, hes, -, hitems⟩ := exists_of_decode h
  exact rel_at? hes hitems (fun w s hs => hs.rel_below place) i

/-! ## Where settings are written -/

/-- Whether entries are the one for settings, which may be missing if there are none. -/
def IsSettings (settings : List Setting) (es : Entries) : Prop :=
  es = [entry "settings" (.list (encodeSettings settings))] ∨ es = [] ∧ settings = []

/-- The entry for nested settings is one for settings. -/
theorem isSettings_nestedEntries (settings : List Setting) :
    IsSettings settings (nestedEntries settings) := by
  unfold nestedEntries
  split
  · next hnil => exact .inr ⟨rfl, hnil⟩
  · exact .inl rfl

/-- Settings are written one by one. -/
theorem encodeSettings_eq_map (settings : List Setting) :
    encodeSettings settings = settings.map encodeSetting := by
  induction settings with
  | nil => rfl
  | cons s rest ih => rw [encodeSettings, List.map_cons, ih]

/-- Behind fields and foreign entries, the settings are found where they are written. -/
theorem follow?_settings {tail : Entries} (hes : ∀ e ∈ es, e.1 ≠ .string "settings".toList)
    (htail : IsSettings settings tail) (i : Nat) :
    (Value.map (es ++ tail)).follow? [.field "settings", .item i] =
      settings[i]?.map encodeSetting := by
  rw [follow?_fieldItem, get?_append, get?_eq_none hes, Option.none_or]
  obtain rfl | ⟨rfl, rfl⟩ := htail
  · rw [get?_entry, if_pos rfl, Option.bind_some, Value.part?_item, encodeSettings_eq_map,
      List.getElem?_map]
  · rw [get?_nil]
    rfl

/-- The settings that are written stand where they stand in what they are written for. -/
theorem follow?_placePath {tail : Entries} (hes : ∀ e ∈ es, e.1 ≠ .string "settings".toList)
    (htail : IsSettings settings tail) (hall : ∀ s ∈ depthFirstAll settings, s.Apart) (i : Nat)
    (place : List Nat) : (Value.map (es ++ tail)).follow? (placePath (i :: place)) =
      (at? settings (i :: place)).map encodeSetting := by
  induction place generalizing es tail settings i with
  | nil =>
    show (Value.map (es ++ tail)).follow? [.field "settings", .item i] = _
    rw [follow?_settings hes htail]
    simp [at?]
  | cons j place ih =>
    have hsplit : placePath (i :: j :: place) =
      [.field "settings", .item i] ++ placePath (j :: place) := rfl
    rw [hsplit, Value.follow?_append, follow?_settings hes htail, at?_cons]
    cases hs : settings[i]? with
    | none => rfl
    | some s =>
      obtain ⟨hmem, hnested⟩ := mem_depthFirstAll_of_getElem? hs
      rw [Option.map_some, Option.bind_some, Option.bind_some, encodeSetting_of_apart (hall s hmem)]
      exact ih (ne_settings (hall s hmem)) (isSettings_nestedEntries s.nested)
        (fun t ht => hall t (hnested ht)) j

/-! ## What is kept -/

/-- Fields, foreign entries and settings that are put together keep what was read. -/
theorem keeps_append {keys : List Text} {fields tail : Entries}
    (hdeclared : Declared (keys.erase "settings") fields) (htail : IsSettings settings tail) :
    Keeps keys es fields (fields ++ extraEntries keys es ++ tail) := by
  refine ⟨hdeclared, ⟨tail, by rw [extraEntries_eq_filter], ?_⟩, ?_⟩
  · obtain rfl | ⟨rfl, -⟩ := htail
    · exact .inr ⟨_, rfl⟩
    · exact .inl rfl
  · intro key hkey hne
    have hextra := (foreign_extraEntries keys es).get?_eq_none hkey
    have hnested : tail.get? key = none := by
      obtain rfl | ⟨rfl, -⟩ := htail
      · rw [get?_entry, if_neg (Ne.symm hne), get?_nil]
      · rfl
    rw [get?_append, get?_append, hextra, hnested, Option.or_none, Option.or_none]

/-- A config that is read is written with the foreign entries of the root. -/
theorem keepsAt_root (hv : v.Distinct) (h : decode v = .ok c) : KeepsAt c [] v (encode c) := by
  obtain ⟨es, hes, hextra, -⟩ := exists_of_decode h
  refine ⟨es, rootKeys, Config.encodeRoot c, _, hes, rfl, rfl,
    Config.encode_of_apart (apart_of_decode hv h), ?_⟩
  rw [hextra]
  exact keeps_append ((Config.declared_encodeRoot c).mono (by decide)) (.inl rfl)

/-- The fields of a setting, nested ones aside, stand under the keys of its type. -/
theorem declared_encodeFields (s : Setting) :
    Declared ((commonKeys ++ kindKeys s.type).erase "settings")
      (encodeFields s.id s.title s.description s.kind) := by
  rw [List.erase_append_left _ (by decide)]
  refine declared_append.mpr ⟨?_, ?_⟩
  · exact (declared_encodeCommon s).mono (List.subset_append_of_subset_left _ (by decide))
  · exact (declared_encodeKind s.kind).mono (List.subset_append_right _ _)

/-- A setting that is read is written with the foreign entries of its mapping. -/
theorem keepsAt_setting {i : Nat} (hs : at? c.settings (i :: place) = some s) (happart : s.Apart)
    (h : Reads w s) : KeepsAt c (i :: place) w (encodeSetting s) := by
  obtain ⟨es, hes, h⟩ := h.exists_settingOf
  obtain ⟨htype, hextra, -⟩ := exists_of_settingOf h
  obtain ⟨name, hget, hname⟩ := Fields.exists_of_type htype
  have hkeys : keysAt? es (i :: place) = some (commonKeys ++ kindKeys s.type) := by
    unfold keysAt?
    rw [(Fields.get?_eq_some_iff.mp hget).1]
    show (scalarText? name).bind _ = _
    rw [hname, Option.bind_some, SettingType.ofName?_name]
    rfl
  have hfields : fieldsAt? c (i :: place) =
      some (encodeFields s.id s.title s.description s.kind) := by
    unfold fieldsAt?
    rw [hs, Option.map_some]
  refine ⟨es, _, _, _, hes, hkeys, hfields, encodeSetting_of_apart happart, ?_⟩
  rw [settingEntries, hextra]
  exact keeps_append (declared_encodeFields s) (isSettings_nestedEntries s.nested)

/-- Reading and writing again keeps what is foreign, if no mapping has a key twice. The mapping that
is written at the root, or for a setting at any depth, has the foreign entries of the mapping that
was read there, with their values and in their order, behind the fields and before the settings,
and nothing else. No mapping is written where none was read, nor the other way around. -/
theorem foreign_kept (hv : v.Distinct) (h : decode v = .ok c) (place : List Nat) :
    Option.Rel (KeepsAt c place) (v.follow? (placePath place))
      ((encode c).follow? (placePath place)) := by
  have hc := apart_of_decode hv h
  cases place with
  | nil => exact .some (keepsAt_root hv h)
  | cons i place =>
    rw [Config.encode_of_apart hc, follow?_placePath (Config.ne_settings hc) (.inl rfl) hc.settings]
    refine rel_map_right (rel_of_decode h i place) fun w s hs hw => ?_
    exact keepsAt_setting hs (hc.settings s (mem_depthFirstAll_iff.mpr ⟨_, hs⟩)) hw

/-- The sample is read and written, and a foreign key in a nested setting is still there. -/
theorem foreign_kept_sampleValue : ∃ c, decode sampleValue = .ok c ∧
    (∀ place, Option.Rel (KeepsAt c place) (sampleValue.follow? (placePath place))
      ((encode c).follow? (placePath place))) ∧
    (encode c).follow? (placePath [0, 0]) = some (.map
      [entry "id" (.string "true"), entry "title" (.string ""),
       entry "type" (.string "variable-number"), entry "min" (.number (.int 0)),
       entry "options" .null]) := by
  have h : decode sampleValue = .ok _ := rfl
  exact ⟨_, h, fun place => foreign_kept distinct_sampleValue h place, rfl⟩

end StyleSnippet.Schema
