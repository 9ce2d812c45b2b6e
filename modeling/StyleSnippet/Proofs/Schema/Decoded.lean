import StyleSnippet.Proofs.Document.Block
import StyleSnippet.Proofs.Schema.Fields
import StyleSnippet.Proofs.Yaml.Distinct

/-!
# Settings that are read as they were written

A config whose foreign entries are none of the fields, and distinct, is written field by field: no
entry takes the place of another one. Its settings block then says the config again, CSS aside.

What is read from a value whose keys are distinct is such a config.
-/

set_option autoImplicit false

namespace StyleSnippet

open Schema Setting

/-! ## Settings that stay apart from their fields -/

/-- Whether the foreign entries of a setting are distinct, and none of them stands under a
field. -/
structure Setting.Apart (s : Setting) : Prop where
  foreign : Foreign (commonKeys ++ kindKeys s.type) s.extra
  distinct : s.extra.Distinct

/-- Whether the foreign entries of a config and those of each of its settings are distinct, and
none of them stands under a field. -/
structure Config.Apart (c : Config) : Prop where
  foreign : Foreign rootKeys c.extra
  distinct : c.extra.Distinct
  settings : ∀ s ∈ depthFirstAll c.settings, s.Apart

namespace Schema

variable {fields : List Text} {es extra : Yaml.Entries} {key : Text} {settings : List Setting}
  {path : Path}

/-! ## How a mapping is written -/

/-- The entry for nested settings, if there are any. -/
def nestedEntries (settings : List Setting) : Yaml.Entries :=
  if settings = [] then [] else [entry "settings" (.list (encodeSettings settings))]

/-- Foreign entries go behind the fields. -/
theorem insertAll_foreign (hes : Declared fields es) (hextra : Foreign fields extra)
    (hdistinct : extra.Distinct) : es.insertAll extra = es ++ extra := by
  refine Yaml.Entries.insertAll_eq hdistinct ?_
  intro e he d hd
  obtain ⟨key, hkey, heq⟩ := hes d hd
  rw [heq, ← Bool.not_eq_true, Yaml.Value.same_string_iff]
  exact hextra.ne_string hkey e he

/-- A further field goes to the end. -/
theorem insert_field {v : Yaml.Value} (hes : ∀ e ∈ es, e.1 ≠ .string key) :
    es.insert (.string key) v = es ++ [entry key v] := by
  refine Yaml.Entries.insert_eq ?_
  intro e he
  rw [← Bool.not_eq_true, Yaml.Value.string_same_iff]
  exact hes e he

/-- The fields of a setting other than those of its kind. -/
def encodeCommon (s : Setting) : Yaml.Entries :=
  [entry "id" (.string s.id), entry "title" (.string s.title)] ++
    optional "description" .string s.description ++ [entry "type" (.string s.kind.type.name)]

/-- The common fields of a setting stand under their keys. -/
theorem declared_encodeCommon (s : Setting) :
    Declared ["id", "title", "description", "type"] (encodeCommon s) := by
  simp [encodeCommon]

/-- Nested settings stand under their key. -/
theorem declared_nestedEntries (settings : List Setting) :
    Declared ["settings"] (nestedEntries settings) := by
  rw [nestedEntries]
  split <;> simp

/-- The entries of a setting, of which none takes the place of another. -/
def settingEntries (s : Setting) : Yaml.Entries :=
  encodeCommon s ++ encodeKind s.kind ++ s.extra ++ nestedEntries s.nested

/-- Only nested settings stand under `settings`. -/
theorem ne_settings {s : Setting} (h : s.Apart) :
    ∀ e ∈ encodeCommon s ++ encodeKind s.kind ++ s.extra, e.1 ≠ .string "settings".toList := by
  have hkind : "settings".toList ∉ kindKeys s.kind.type :=
    disjoint_kindKeys s.kind.type _ (by decide)
  rw [List.forall_mem_append, List.forall_mem_append]
  refine ⟨⟨?_, ?_⟩, ?_⟩
  · exact (declared_encodeCommon s).ne_string (by decide)
  · exact (declared_encodeKind s.kind).ne_string hkind
  · exact h.foreign.ne_string (List.mem_append_left _ (by decide))

/-- A setting is written field by field, as none of its entries takes the place of another. -/
theorem encodeSetting_of_apart {s : Setting} (h : s.Apart) :
    encodeSetting s = .map (settingEntries s) := by
  have hfields : Declared (commonKeys ++ kindKeys s.type)
      (encodeFields s.id s.title s.description s.kind) := by
    refine declared_append.mpr ⟨?_, ?_⟩
    · exact (declared_encodeCommon s).mono (List.subset_append_of_subset_left _ (by decide))
    · exact (declared_encodeKind s.kind).mono (List.subset_append_right _ _)
  rw [encodeSetting_eq]
  simp only [insertAll_foreign hfields h.foreign h.distinct]
  by_cases hnested : s.nested = []
  · simp [settingEntries, nestedEntries, hnested, encodeFields, encodeCommon]
  · have hnew : ∀ e ∈ encodeFields s.id s.title s.description s.kind ++ s.extra,
        e.1 ≠ .string "settings".toList := by
      simpa only [encodeFields, encodeCommon] using ne_settings h
    rw [if_neg hnested, insert_field hnew]
    simp [settingEntries, nestedEntries, hnested, encodeFields, encodeCommon]

/-- A field of the kind is found among the fields of the kind. -/
theorem get?_kind {s : Setting} (h : s.Apart) :
    ∀ key ∈ kindKeys s.type, (settingEntries s).get? key = (encodeKind s.kind).get? key := by
  intro key hkey
  have hcommon : key ∉ commonKeys := fun hmem => disjoint_kindKeys s.type key hmem hkey
  have hhead : (encodeCommon s).get? key = none :=
    ((declared_encodeCommon s).mono (l := commonKeys) (by decide)).get?_eq_none hcommon
  have hextra : s.extra.get? key = none := h.foreign.get?_eq_none (List.mem_append_right _ hkey)
  have hnested : (nestedEntries s.nested).get? key = none :=
    ((declared_nestedEntries s.nested).mono (l := commonKeys) (by decide)).get?_eq_none
      hcommon
  simp [settingEntries, hhead, hextra, hnested]

/-- A field of all settings is found among those. -/
theorem get?_common {s : Setting} (h : s.Apart) (hkey : key ∈ commonKeys)
    (hsettings : key ≠ "settings".toList) :
    (settingEntries s).get? key = (encodeCommon s).get? key := by
  have hkind : (encodeKind s.kind).get? key = none :=
    (declared_encodeKind s.kind).get?_eq_none (disjoint_kindKeys s.kind.type key hkey)
  have hextra : s.extra.get? key = none := h.foreign.get?_eq_none (List.mem_append_left _ hkey)
  have hnested : (nestedEntries s.nested).get? key = none :=
    (declared_nestedEntries s.nested).get?_eq_none (by simpa using hsettings)
  simp [settingEntries, hkind, hextra, hnested]

/-! ## How it is read -/

/-- Nested settings are looked for behind entries that are none. -/
theorem decodeNested_append (path : Path) (hes : ∀ e ∈ es, e.1 ≠ .string "settings".toList)
    (rest : Yaml.Entries) : decodeNested path (es ++ rest) = decodeNested path rest := by
  induction es with
  | nil => rfl
  | cons e es ih =>
    obtain ⟨k, v⟩ := e
    rw [List.forall_mem_cons] at hes
    rw [List.cons_append]
    cases k with
    | string name =>
      have hname : name ≠ "settings".toList := fun heq => hes.1 (congrArg _ heq)
      rw [decodeNested, if_neg hname, ih hes.2]
    | _ =>
      rw [decodeNested, ih hes.2]
      simp

/-- Nested settings are read back from their entry, if they are from the list. -/
theorem decodeNested_nestedEntries
    (hitems : ∀ path, decodeItems path 0 (encodeSettings settings) = .ok (formAll settings)) :
    decodeNested path (nestedEntries settings) = .ok (formAll settings) := by
  rw [nestedEntries]
  split
  · next hnil =>
    rw [hnil]
    rfl
  · rw [entry, decodeNested, if_pos rfl, decodeSettings, hitems]

/-- The foreign entries of a written setting are those that it has. -/
theorem extraEntries_settingEntries {s : Setting} (h : s.Apart) :
    extraEntries (commonKeys ++ kindKeys s.type) (settingEntries s) = s.extra := by
  have hcommon := (declared_encodeCommon s).mono (l := commonKeys ++ kindKeys s.type)
    (List.subset_append_of_subset_left _ (by decide))
  have hkind := (declared_encodeKind s.kind).mono (l := commonKeys ++ kindKeys s.type)
    (List.subset_append_right _ _)
  have hnested := (declared_nestedEntries s.nested).mono
    (l := commonKeys ++ kindKeys s.type) (List.subset_append_of_subset_left _ (by decide))
  simp only [settingEntries, extraEntries_append, extraEntries_of_declared hcommon,
    extraEntries_of_declared hkind, extraEntries_of_declared hnested,
    extraEntries_of_foreign h.foreign, List.nil_append, List.append_nil]

/-- A written setting is read as itself, CSS aside, if the settings nested in it are. -/
theorem decodeSetting_encodeSetting {s : Setting} (h : s.Apart) (path : Path) (found : Shape)
    (hitems : ∀ path, decodeItems path 0 (encodeSettings s.nested) = .ok (formAll s.nested)) :
    decodeSetting path found (encodeSetting s) =
      .ok { s with css := none, nested := formAll s.nested } := by
  have hcommon {key : Text} (hkey : key ∈ commonKeys) (hne : key ≠ "settings".toList) :=
    get?_common h hkey hne
  have hid : Fields.requiredString ⟨settingEntries s, path⟩ "id" = .ok s.id :=
    Fields.requiredString_eq ((hcommon (by decide) (by decide)).trans (by simp [encodeCommon]))
  have htitle : Fields.string ⟨settingEntries s, path⟩ "title" = .ok (some s.title) :=
    Fields.string_eq ((hcommon (by decide) (by decide)).trans (by simp [encodeCommon]))
  have hdescription : Fields.string ⟨settingEntries s, path⟩ "description" = .ok s.description :=
    Fields.string_eq ((hcommon (by decide) (by decide)).trans (by simp [encodeCommon]))
  have hcss : Fields.string ⟨settingEntries s, path⟩ "css" = .ok none :=
    Fields.string_eq ((hcommon (by decide) (by decide)).trans (by simp [encodeCommon]))
  have hname : Fields.requiredString ⟨settingEntries s, path⟩ "type" = .ok s.kind.type.name :=
    Fields.requiredString_eq ((hcommon (by decide) (by decide)).trans (by simp [encodeCommon]))
  have htype : Fields.type ⟨settingEntries s, path⟩ = .ok s.kind.type := by
    rw [Fields.type, hname]
    simp only [bind, Except.bind, SettingType.ofName?_name]
    rfl
  have hkind : Fields.kind ⟨settingEntries s, path⟩ s.kind.type = .ok s.kind :=
    Fields.kind_eq (get?_kind h)
  have hnested : decodeNested path (settingEntries s) = .ok (formAll s.nested) := by
    rw [settingEntries, decodeNested_append path (ne_settings h)]
    exact decodeNested_nestedEntries hitems
  have hextra : extraEntries (commonKeys ++ kindKeys s.kind.type) (settingEntries s) = s.extra :=
    extraEntries_settingEntries h
  rw [encodeSetting_of_apart h, decodeSetting]
  simp only [bind, Except.bind, htype, hkind, hid, htitle, hdescription, hcss, hnested, hextra]
  rfl

/-- Written settings are read as themselves, CSS aside. -/
theorem decodeItems_encodeSettings (h : ∀ s ∈ depthFirstAll settings, s.Apart) (path : Path)
    (i : Nat) : decodeItems path i (encodeSettings settings) = .ok (formAll settings) := by
  induction settings using forest_induction generalizing path i with
  | nil => rfl
  | cons s rest ihn ihr =>
    rw [depthFirstAll_cons, List.forall_mem_cons, List.forall_mem_append] at h
    obtain ⟨hs, hnested, hrest⟩ := h
    have hsetting := decodeSetting_encodeSetting hs (path ++ [.item i])
      (encodeSetting s).shape fun path => ihn hnested path 0
    rw [encodeSettings, decodeItems, hsetting, ihr hrest, formAll_cons]
    rfl

end Schema

namespace Config

variable {c : Config}

/-- The fields of a config other than its settings. -/
def encodeRoot (c : Config) : Yaml.Entries :=
  optional "name" .string c.name ++ [entry "id" (.string c.id)]

/-- The fields of a config stand under their keys. -/
theorem declared_encodeRoot (c : Config) : Declared ["name", "id"] (encodeRoot c) := by
  simp [encodeRoot]

/-- Only settings stand under `settings`. -/
theorem ne_settings (h : c.Apart) :
    ∀ e ∈ encodeRoot c ++ c.extra, e.1 ≠ .string "settings".toList := by
  rw [List.forall_mem_append]
  refine ⟨?_, ?_⟩
  · exact (declared_encodeRoot c).ne_string (by decide)
  · exact h.foreign.ne_string (by decide)

/-- A config is written field by field, as none of its entries takes the place of another. -/
theorem encode_of_apart (h : c.Apart) : encode c = .map
    (encodeRoot c ++ c.extra ++ [entry "settings" (.list (encodeSettings c.settings))]) := by
  have hfields := (declared_encodeRoot c).mono (l := rootKeys) (by decide)
  have hall := insertAll_foreign hfields h.foreign h.distinct
  rw [encodeRoot] at hall
  have hnew := ne_settings h
  rw [encodeRoot] at hnew
  simp only [encode, hall, insert_field hnew, encodeRoot]

/-- The settings block of a config says the config, CSS aside. -/
theorem decode_encode (h : c.Apart) : decode (encode c) = .ok c.bare := by
  let es := encodeRoot c ++ c.extra ++ [entry "settings" (.list (encodeSettings c.settings))]
  have hfield {key : Text} (hkey : key ∈ rootKeys) (hne : key ≠ "settings".toList) :
      es.get? key = (encodeRoot c).get? key := by
    have hlast : Yaml.Entries.get? [entry "settings" (.list (encodeSettings c.settings))] key =
        none := by
      rw [get?_entry, if_neg (Ne.symm hne), get?_nil]
    simp only [es, get?_append, h.foreign.get?_eq_none hkey, hlast, Option.or_none]
  have hname : Fields.string ⟨es, []⟩ "name" = .ok c.name :=
    Fields.string_eq ((hfield (by decide) (by decide)).trans (by simp [encodeRoot]))
  have hid : Fields.requiredString ⟨es, []⟩ "id" = .ok c.id :=
    Fields.requiredString_eq ((hfield (by decide) (by decide)).trans (by simp [encodeRoot]))
  have hsettings : decodeNested [] es = .ok (formAll c.settings) := by
    rw [decodeNested_append [] (ne_settings h), entry, decodeNested, if_pos rfl, decodeSettings,
      decodeItems_encodeSettings h.settings]
  have hextra : extraEntries rootKeys es = c.extra := by
    have hroot := (declared_encodeRoot c).mono (l := rootKeys) (by decide)
    have hlast : Declared rootKeys [entry "settings" (.list (encodeSettings c.settings))] := by
      simp [rootKeys]
    simp only [es, extraEntries_append, extraEntries_of_declared hroot,
      extraEntries_of_declared hlast, extraEntries_of_foreign h.foreign, List.nil_append,
      List.append_nil]
  rw [encode_of_apart h, decode]
  simp only [Yaml.Value.entries?, Yaml.Value.untagged, bind, Except.bind]
  rw [hname, hid, hsettings, hextra]
  rfl

end Config

/-! ## What is read stays apart -/

namespace Schema

variable {es : Yaml.Entries}

/-- Foreign entries are distinct if the mapping has distinct keys. -/
theorem distinct_extraEntries (h : es.Distinct) (fields : List Text) :
    (extraEntries fields es).Distinct :=
  h.sublist List.filter_sublist

/-- The kind that is read for a type is one of that type. -/
theorem type_of_kind {f : Fields} {type : SettingType} {kind : SettingKind}
    (h : f.kind type = .ok kind) : kind.type = type := by
  cases type with
  | variableNumber | infoText =>
    obtain ⟨_, -, h⟩ := bind_eq_ok.mp h
    cases h
    rfl
  | heading | classToggle | variableText | variableNumberSlider | variableSelect =>
    obtain ⟨_, -, h⟩ := bind_eq_ok.mp h
    obtain ⟨_, -, h⟩ := bind_eq_ok.mp h
    cases h
    rfl
  | classSelect | variableColor =>
    obtain ⟨_, -, h⟩ := bind_eq_ok.mp h
    obtain ⟨_, -, h⟩ := bind_eq_ok.mp h
    obtain ⟨_, -, h⟩ := bind_eq_ok.mp h
    cases h
    rfl

open Yaml.Value in
mutual

/-- A setting that is read from a value with distinct keys stays apart from its fields, and so do
those nested in it. -/
theorem apart_of_decodeSetting (path : Path) (found : Shape) :
    ∀ (v : Yaml.Value) (s : Setting), v.Distinct → decodeSetting path found v = .ok s →
      s.Apart ∧ ∀ t ∈ depthFirstAll s.nested, t.Apart
  | .tagged _ v, s, hv, h => by
    rw [decodeSetting] at h
    exact apart_of_decodeSetting path found v s hv h
  | .map entries, s, hv, h => by
    rw [decodeSetting] at h
    simp only [bind_eq_ok, pure, Except.pure, Except.ok.injEq] at h
    obtain ⟨type, -, kind, hkind, _, -, _, -, _, -, _, -, nested, hnested, rfl⟩ := h
    refine ⟨⟨?_, distinct_extraEntries hv.1 _⟩, ?_⟩
    · rw [Setting.type, type_of_kind hkind]
      exact foreign_extraEntries _ entries
    · exact apart_of_decodeNested path entries nested hv.2 hnested
  | .null, _, _, h | .bool _, _, _, h | .number _, _, _, h | .string _, _, _, h
  | .list _, _, _, h => by
    simp [decodeSetting] at h

/-- All settings that are read from the entries of a mapping with distinct keys keep their foreign
entries apart. -/
theorem apart_of_decodeNested (path : Path) :
    ∀ (es : List (Yaml.Value × Yaml.Value)) (settings : List Setting), EntriesDistinct es →
      decodeNested path es = .ok settings → ∀ t ∈ depthFirstAll settings, t.Apart
  | [], settings, _, h => by
    rw [decodeNested, Except.ok.injEq] at h
    simp [← h]
  | (key, value) :: rest, settings, hes, h => by
    have hrest (h : decodeNested path rest = .ok settings) :=
      apart_of_decodeNested path rest settings hes.2 h
    cases key with
    | string name =>
      rw [decodeNested] at h
      split at h
      · exact apart_of_decodeSettings _ value settings hes.1 h
      · exact hrest h
    | _ => exact hrest (by simpa only [decodeNested] using h)

/-- All settings that are read from a value with distinct keys keep their foreign entries apart. -/
theorem apart_of_decodeSettings (path : Path) :
    ∀ (v : Yaml.Value) (settings : List Setting), v.Distinct →
      decodeSettings path v = .ok settings → ∀ t ∈ depthFirstAll settings, t.Apart
  | .null, settings, _, h => by
    rw [decodeSettings, Except.ok.injEq] at h
    simp [← h]
  | .list items, settings, hv, h => by
    rw [decodeSettings] at h
    exact apart_of_decodeItems path 0 items settings hv h
  | .bool _, _, _, h | .number _, _, _, h | .string _, _, _, h | .map _, _, _, h
  | .tagged _ _, _, _, h => by
    simp [decodeSettings] at h

/-- All settings that are read from items with distinct keys keep their foreign entries apart. -/
theorem apart_of_decodeItems (path : Path) (i : Nat) :
    ∀ (items : List Yaml.Value) (settings : List Setting), ItemsDistinct items →
      decodeItems path i items = .ok settings → ∀ t ∈ depthFirstAll settings, t.Apart
  | [], settings, _, h => by
    rw [decodeItems, Except.ok.injEq] at h
    simp [← h]
  | v :: rest, settings, hitems, h => by
    rw [decodeItems] at h
    simp only [bind_eq_ok, pure, Except.pure, Except.ok.injEq] at h
    obtain ⟨s, hs, rest', hrest, rfl⟩ := h
    obtain ⟨hself, hnested⟩ := apart_of_decodeSetting _ v.shape v s hitems.1 hs
    rw [depthFirstAll_cons, List.forall_mem_cons, List.forall_mem_append]
    exact ⟨hself, hnested, apart_of_decodeItems path (i + 1) rest rest' hitems.2 hrest⟩

end

/-- What is read from a value with distinct keys stays apart from its fields. -/
theorem apart_of_decode {v : Yaml.Value} {c : Config} (hv : v.Distinct) (h : decode v = .ok c) :
    c.Apart := by
  rw [decode] at h
  split at h
  · cases h
  · next entries hentries =>
    simp only [bind_eq_ok, pure, Except.pure, Except.ok.injEq] at h
    obtain ⟨name, -, id, -, settings, hsettings, rfl⟩ := h
    have hmap := hv.of_entries? hentries
    exact ⟨foreign_extraEntries _ entries, distinct_extraEntries hmap.1 _,
      apart_of_decodeNested [] entries settings hmap.2 hsettings⟩

/-- All CSS that is read is the CSS of settings. -/
theorem bare_of_decode {v : Yaml.Value} {c : Config} (h : decode v = .ok c) :
    c.bare = { c with settings := formAll c.settings } := by
  rw [decode] at h
  split at h
  · cases h
  · simp only [bind_eq_ok, pure, Except.pure, Except.ok.injEq] at h
    obtain ⟨_, -, _, -, _, -, rfl⟩ := h
    rfl

/-- Nothing is lost between a config and its settings block but CSS and how the body is marked. A
config whose foreign entries stay apart from the fields is read as it was written; and every config
that is read, from a value in which no mapping has a key twice, is such a config, so that writing it
and reading it again only drops the CSS of its settings. -/
theorem decode_lossless :
    (∀ c : Config, c.Apart → decode (encode c) = .ok c.bare) ∧
    ∀ (v : Yaml.Value) (c : Config), v.Distinct → decode v = .ok c →
      c.Apart ∧ decode (encode c) = .ok { c with settings := formAll c.settings } := by
  refine ⟨fun c hc => Config.decode_encode hc, fun v c hv h => ?_⟩
  have hapart := apart_of_decode hv h
  exact ⟨hapart, by rw [Config.decode_encode hapart, bare_of_decode h]⟩

/-- Options in both shapes, fields in any order, a setting behind a tag, nested settings, fields of
other types, and foreign keys of all sorts. -/
def sampleValue : Yaml.Value := .map
  [entry "css" (.string "a"), (.number (.int 3), .null), entry "settings" (.list [
    .tagged "b" (.map
      [entry "type" (.string "class-select"),
       entry "settings" (.list [.map
         [entry "type" (.string "variable-number"), entry "min" (.number (.int 0)),
          entry "id" (.bool true), entry "options" .null]]),
       entry "options" (.list [.number (.int 1), .map [entry "value" (.string "c")]]),
       (.tagged "d" (.string "level"), .list []), entry "css" (.string "e"),
       entry "id" (.string "f"), entry "markdown" (.bool false)])]),
   entry "id" (.string "g")]

/-- No mapping in the sample has a key twice. -/
theorem distinct_sampleValue : sampleValue.Distinct := by
  simp [sampleValue, Yaml.Value.Distinct, Yaml.Value.ItemsDistinct, Yaml.Value.EntriesDistinct,
    Yaml.Entries.Distinct, entry, Yaml.Value.same]

/-- The sample is read, and what is written of it is read as the same config, its CSS aside. -/
theorem decode_lossless_sampleValue : ∃ c, decode sampleValue = .ok c ∧
    c.settings.map (·.css) = [some "e".toList] ∧ c.Apart ∧
    decode (encode c) = .ok { c with settings := formAll c.settings } ∧
    decode (encode { c with globalCss := "i", format := some .cell }) =
      .ok { c with settings := formAll c.settings } := by
  have h : decode sampleValue = .ok _ := rfl
  obtain ⟨hapart, hagain⟩ := decode_lossless.2 sampleValue _ distinct_sampleValue h
  refine ⟨_, h, rfl, hapart, hagain, ?_⟩
  exact decode_lossless.1 _ ⟨hapart.foreign, hapart.distinct, hapart.settings⟩

end Schema

/-! ## Configs with one settings block -/

namespace Config

variable {c c' : Config}

/-- CSS has no part in whether settings stay apart from their fields. -/
theorem Apart.of_bare_eq (h : c.Apart) (hbare : c.bare = c'.bare) : c'.Apart := by
  simp only [bare, mk.injEq, true_and] at hbare
  obtain ⟨-, -, hform, hextra⟩ := hbare
  have hall := map_depthFirstAll (f := fun s => (s.type, s.extra)) (fun s => rfl) hform
  refine ⟨hextra ▸ h.foreign, hextra ▸ h.distinct, ?_⟩
  intro s hs
  have hmem : (s.type, s.extra) ∈ (depthFirstAll c'.settings).map fun s => (s.type, s.extra) :=
    List.mem_map_of_mem hs
  rw [← hall, List.mem_map] at hmem
  obtain ⟨t, ht, heq⟩ := hmem
  rw [Prod.mk.injEq] at heq
  have hself := h.settings t ht
  exact ⟨heq.1 ▸ heq.2 ▸ hself.foreign, heq.2 ▸ hself.distinct⟩

/-- Configs with the same settings block are the same, CSS aside. -/
theorem bare_eq_of_encode_eq (h : c.Apart) (h' : c'.Apart) (heq : encode c = encode c') :
    c.bare = c'.bare := by
  have hdecode := decode_encode h
  rw [heq, decode_encode h', Except.ok.injEq] at hdecode
  exact hdecode.symm

end Config

end StyleSnippet
