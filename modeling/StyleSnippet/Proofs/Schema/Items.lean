import StyleSnippet.Proofs.Schema.Fields
import StyleSnippet.Proofs.Schema.Paths

/-!
# Lists that are read item by item

Settings and options are both lists under a key, read from the first item on, each at its position.
So a setting is read from the entries of its mapping, tags or not, and its nested settings like its
options.

Where something is read from makes a difference to errors only, in whose paths it stands in front:
each item is read as on its own.
-/

set_option autoImplicit false

namespace StyleSnippet.Schema

open Yaml

variable {α β : Type} {es : Entries} {path : Path} {v : Value} {e : Error} {key : Text}

/-! ## What is read from a field -/

namespace Fields

/-- A field has a value just if its entry does and that is not null. -/
theorem get?_eq_some_iff :
    Fields.get? ⟨es, path⟩ key = some v ↔ es.get? key = some v ∧ v ≠ .null := by
  unfold Fields.get?
  split
  · next hnull =>
    simp only [reduceCtorEq, hnull, Option.some.injEq, false_iff]
    rintro ⟨rfl, hne⟩
    exact hne rfl
  · next hnull =>
    constructor
    · intro h
      refine ⟨h, ?_⟩
      rintro rfl
      exact hnull h
    · exact fun h => h.1

/-- A field is missing just if its entry is, or that is null. -/
theorem get?_eq_none_iff : Fields.get? ⟨es, path⟩ key = none ↔
    es.get? key = none ∨ es.get? key = some .null := by
  unfold Fields.get?
  split
  · next hnull => simp [hnull]
  · next hnull =>
    constructor
    · exact Or.inl
    · rintro (h | h)
      · exact h
      · exact absurd h hnull

variable {expected : Expected} {value? : Value → Option α} {f : Fields}

/-- A field is read as missing just if it is. -/
theorem read_eq_none_iff : f.read key expected value? = .ok none ↔ f.get? key = none := by
  unfold Fields.read
  cases f.get? key with
  | none => simp
  | some v =>
    cases h : value? v <;> simp [h]

/-- A field is read as a value just if it has one that can be read so. -/
theorem read_eq_some_iff {a : α} : f.read key expected value? = .ok (some a) ↔
    ∃ v, f.get? key = some v ∧ value? v = some a := by
  unfold Fields.read
  cases f.get? key with
  | none => simp
  | some v =>
    cases h : value? v <;> simp [h]

/-- A number that was read is the value of its field. -/
theorem get?_of_number {n : Number} (h : f.number key = .ok (some n)) :
    f.get? key = some (.number n) := by
  obtain ⟨v, hv, hn⟩ := read_eq_some_iff.mp h
  split at hn
  · cases hn
    exact hv
  · cases hn

/-- A string that was read is the text of the value of its field. -/
theorem exists_of_requiredString {t : Text} (h : f.requiredString key = .ok t) :
    ∃ v, f.get? key = some v ∧ scalarText? v = some t := by
  obtain ⟨o, ho, h⟩ := bind_eq_ok.mp h
  cases o with
  | none => cases h
  | some s =>
    cases h
    exact read_eq_some_iff.mp ho

/-- A type that was read is named by the value of its field. -/
theorem exists_of_type {type : SettingType} (h : f.type = .ok type) :
    ∃ v, f.get? "type" = some v ∧ scalarText? v = some type.name := by
  obtain ⟨name, hname, h⟩ := bind_eq_ok.mp h
  cases hty : SettingType.ofName? name with
  | none =>
    rw [hty] at h
    cases h
  | some ty =>
    rw [hty] at h
    cases h
    have heq : type.name = name := by simpa using List.find?_some hty
    exact heq ▸ exists_of_requiredString hname

end Fields

/-! ## Settings as entries of a mapping -/

/-- Reads the items of a list, each at its position. -/
def readItems (read : Path → Value → Except Error α) (path : Path) :
    Nat → List Value → Except Error (List α)
  | _, [] => .ok []
  | i, v :: rest => do
    let a ← read (path ++ [.item i]) v
    return a :: (← readItems read path (i + 1) rest)

/-- Reads the list under a key, which may be missing. -/
def Fields.items (f : Fields) (key : Text) (read : Path → Value → Except Error α) :
    Except Error (List α) :=
  match f.get? key with
  | none => .ok []
  | some (.list items) => readItems read (f.pathTo key) 0 items
  | some v => .error (mismatch (f.pathTo key) .list v)

/-- A setting, from a value that is reported by its own kind. -/
def readSetting (path : Path) (v : Value) : Except Error Setting := decodeSetting path v.shape v

/-- The setting that the entries of a mapping say. -/
def settingOf (f : Fields) : Except Error Setting := do
  let type ← f.type
  let kind ← f.kind type
  return {
    id := ← f.requiredString "id"
    title := (← f.string "title").getD []
    description := ← f.string "description"
    kind := kind
    css := ← f.string "css"
    nested := ← f.items "settings" readSetting
    extra := extraEntries (commonKeys ++ kindKeys type) f.entries }

/-- Options are read item by item. -/
theorem decodeOptions_eq (path : Path) (i : Nat) (items : List Value) :
    decodeOptions path i items = readItems decodeOption path i items := by
  induction items generalizing i with
  | nil => rfl
  | cons v rest ih => rw [decodeOptions, readItems, ih]

/-- A list of options is read as any list of items is. -/
theorem options_eq_items (f : Fields) (key : Text) : f.options key = f.items key decodeOption := by
  unfold Fields.options Fields.items
  cases f.get? key with
  | none => rfl
  | some v =>
    cases v with
    | list items => exact decodeOptions_eq _ 0 items
    | _ => rfl

/-- Settings are read item by item. -/
theorem decodeItems_eq (path : Path) (i : Nat) (items : List Value) :
    decodeItems path i items = readItems readSetting path i items := by
  induction items generalizing i with
  | nil => rfl
  | cons v rest ih => rw [decodeItems, readItems, ih, readSetting]

/-- An entry under another key is passed over. -/
theorem get?_cons_of_ne {k : Value} (h : k ≠ .string key) (v : Value) (es : Entries) :
    Entries.get? ((k, v) :: es) key = es.get? key := by
  have hfirst : Entries.get? [(k, v)] key = none := get?_eq_none (by simpa using h)
  rw [← List.singleton_append, get?_append, hfirst, Option.none_or]

/-- The settings of a mapping that starts with them are those of the value there. -/
theorem items_settings_cons (path : Path) (v : Value) (es : Entries) :
    Fields.items ⟨entry "settings" v :: es, path⟩ "settings" readSetting =
      decodeSettings (path ++ [.field "settings"]) v := by
  have hget : Entries.get? (entry "settings" v :: es) "settings" = some v := by
    rw [get?_entry, if_pos rfl]
  unfold Fields.items
  by_cases hnull : v = .null
  · rw [Fields.get?_eq_none_iff.mpr (.inr (hnull ▸ hget)), hnull]
    rfl
  · rw [Fields.get?_eq_some_iff.mpr ⟨hget, hnull⟩]
    cases v with
    | null => exact absurd rfl hnull
    | list items => exact (decodeItems_eq _ 0 items).symm
    | _ => rfl

/-- The search for nested settings finds the first entry under their key. -/
theorem decodeNested_eq (path : Path) (es : Entries) :
    decodeNested path es = Fields.items ⟨es, path⟩ "settings" readSetting := by
  induction es with
  | nil => rfl
  | cons e es ih =>
    obtain ⟨k, v⟩ := e
    have hskip (hk : k ≠ .string "settings".toList) :
        Fields.items ⟨(k, v) :: es, path⟩ "settings" readSetting =
          Fields.items ⟨es, path⟩ "settings" readSetting := by
      unfold Fields.items Fields.get?
      simp only [get?_cons_of_ne hk]
      rfl
    cases k with
    | string name =>
      rw [decodeNested]
      split
      · next hname =>
        subst hname
        exact (items_settings_cons path v es).symm
      · next hname => rw [ih, hskip (by simpa using hname)]
    | _ => rw [decodeNested, ih, hskip (by simp)]; simp

/-- A setting is read from the entries of its mapping, tags aside. -/
theorem decodeSetting_eq (path : Path) (found : Shape) : ∀ v, decodeSetting path found v =
    match v.entries? with
    | none => .error ⟨path, .mismatch .mapping found⟩
    | some es => settingOf ⟨es, path⟩
  | .tagged tag v => by
    rw [decodeSetting, decodeSetting_eq path found v]
    rfl
  | .map es => by
    rw [decodeSetting, decodeNested_eq]
    rfl
  | .null | .bool _ | .number _ | .string _ | .list _ => rfl

/-! ## Where something is read from -/

/-- An error of a part, told of the whole. -/
def Error.under (path : Path) (e : Error) : Error := { e with path := path ++ e.path }

/-- Whether where something is read from makes a difference to the paths of errors only. -/
def Relative (read : Path → Except Error α) : Prop :=
  ∀ path, read path = (read []).mapError (Error.under path)

/-- Errors of two readings in a row are changed in either. -/
theorem mapError_bind (g : Error → Error) (x : Except Error α) (k : α → Except Error β) :
    (x >>= k).mapError g = x.mapError g >>= fun a => (k a).mapError g := by
  cases x <;> rfl

/-- A reading that always succeeds is the same from everywhere. -/
theorem relative_ok (a : α) : Relative fun _ => .ok a := by
  intro path
  rfl

/-- An error at a part is told from wherever the whole is. -/
theorem relative_error (p : Path) (problem : Problem) :
    Relative fun path => (.error ⟨path ++ p, problem⟩ : Except Error α) := by
  intro path
  simp [Except.mapError, Error.under]

/-- Two relative readings in a row are a relative one. -/
theorem Relative.bind {x : Path → Except Error α} {k : α → Path → Except Error β}
    (hx : Relative x) (hk : ∀ a, Relative (k a)) : Relative fun path => x path >>= (k · path) := by
  intro path
  simp only
  rw [hx path, mapError_bind]
  congr 1
  funext a
  exact hk a path

/-- What is read from a part of the whole is read relative to the whole. -/
theorem Relative.under {read : Path → Except Error α} (h : Relative read) (p : Path) :
    Relative fun path => read (path ++ p) := by
  intro path
  simp only [List.nil_append]
  rw [h (path ++ p), h p]
  cases read [] with
  | ok a => rfl
  | error e => simp [Except.mapError, Error.under]

/-- A field is read the same wherever its mapping stands. -/
theorem relative_read (es : Entries) (key : Text) (expected : Expected)
    (value? : Value → Option α) :
    Relative fun path => Fields.read ⟨es, path⟩ key expected value? := by
  intro path
  have hget : Fields.get? ⟨es, path⟩ key = Fields.get? ⟨es, []⟩ key := rfl
  unfold Fields.read
  simp only
  rw [hget]
  cases Fields.get? ⟨es, []⟩ key with
  | none => rfl
  | some v =>
    cases hv : value? v with
    | some a =>
      simp only [hv]
      rfl
    | none =>
      simp only [hv]
      exact relative_error [.field key] (.mismatch expected v.shape) path

/-- A string is read the same wherever its mapping stands. -/
theorem relative_string (es : Entries) (key : Text) :
    Relative fun path => Fields.string ⟨es, path⟩ key :=
  relative_read es key .string scalarText?

/-- A Boolean is read the same wherever its mapping stands. -/
theorem relative_bool (es : Entries) (key : Text) :
    Relative fun path => Fields.bool ⟨es, path⟩ key :=
  relative_read es key _ _

/-- A number is read the same wherever its mapping stands. -/
theorem relative_number (es : Entries) (key : Text) :
    Relative fun path => Fields.number ⟨es, path⟩ key :=
  relative_read es key _ _

/-- A string that has to be there is read the same wherever its mapping stands. -/
theorem relative_requiredString (es : Entries) (key : Text) :
    Relative fun path => Fields.requiredString ⟨es, path⟩ key := by
  refine (relative_string es key).bind fun o => ?_
  cases o with
  | some s => exact relative_ok s
  | none => exact relative_error [.field key] .missingField

/-- A level is read the same wherever its mapping stands. -/
theorem relative_level (es : Entries) (key : Text) :
    Relative fun path => Fields.level ⟨es, path⟩ key := by
  refine (relative_number es key).bind fun o => ?_
  cases o with
  | none => exact relative_ok none
  | some n =>
    cases hlevel : Fields.level? n with
    | some l =>
      simp only [hlevel]
      exact relative_ok (some l)
    | none =>
      simp only [hlevel]
      exact relative_error [.field key] (.levelOutOfRange n)

/-- A type is read the same wherever its mapping stands. -/
theorem relative_type (es : Entries) : Relative fun path => Fields.type ⟨es, path⟩ := by
  refine (relative_requiredString es "type").bind fun name => ?_
  cases SettingType.ofName? name with
  | some type => exact relative_ok type
  | none => exact relative_error [.field "type"] (.unknownType name)

/-- The numbers of a numeric setting are read the same wherever its mapping stands. -/
theorem relative_numberSpec (es : Entries) :
    Relative fun path => Fields.numberSpec ⟨es, path⟩ :=
  (relative_number es "default").bind fun _ => (relative_number es "min").bind fun _ =>
    (relative_number es "max").bind fun _ => (relative_number es "step").bind fun _ =>
      relative_ok _

/-! ### Lists -/

/-- Whether a value is read as on its own, wherever it stands. -/
def ReadsAlone (read : Path → Value → Except Error α) (v : Value) : Prop := Relative (read · v)

variable {read : Path → Value → Except Error α}

/-- What a value is read as on its own it is read as anywhere. -/
theorem ReadsAlone.eq_ok_iff (h : ReadsAlone read v) {a : α} :
    read path v = .ok a ↔ read [] v = .ok a := by
  have hpath : read path v = (read [] v).mapError (Error.under path) := h path
  rw [hpath]
  cases read [] v <;> simp [Except.mapError]

/-- What is wrong with a value on its own is wrong with it anywhere, its path longer. -/
theorem ReadsAlone.eq_error_iff (h : ReadsAlone read v) :
    read path v = .error e ↔ ∃ e', read [] v = .error e' ∧ e'.under path = e := by
  have hpath : read path v = (read [] v).mapError (Error.under path) := h path
  rw [hpath]
  cases read [] v <;> simp [Except.mapError]

/-- Items that are each read as on their own are so in a list, wherever that stands. -/
theorem relative_readItems {items : List Value} (h : ∀ v ∈ items, ReadsAlone read v) (i : Nat) :
    Relative fun path => readItems read path i items := by
  induction items generalizing i with
  | nil => exact relative_ok []
  | cons v rest ih =>
    rw [List.forall_mem_cons] at h
    exact (h.1.under [.item i]).bind fun a => (ih h.2 (i + 1)).bind fun _ => relative_ok _

/-- A list under a key is read the same wherever its mapping stands, if each of its items is. -/
theorem relative_items
    (h : ∀ items, es.get? key = some (.list items) → ∀ v ∈ items, ReadsAlone read v) :
    Relative fun path => Fields.items ⟨es, path⟩ key read := by
  intro path
  have hget : Fields.get? ⟨es, path⟩ key = Fields.get? ⟨es, []⟩ key := rfl
  unfold Fields.items
  simp only
  rw [hget]
  cases hv : Fields.get? ⟨es, []⟩ key with
  | none => rfl
  | some v =>
    cases v with
    | list items =>
      have hitems := h items (Fields.get?_eq_some_iff.mp hv).1
      exact (relative_readItems hitems 0).under [.field key] path
    | _ => exact relative_error [.field key] (.mismatch .list _) path

/-- An option is read as on its own. -/
theorem readsAlone_decodeOption (v : Value) : ReadsAlone decodeOption v := by
  unfold ReadsAlone decodeOption
  cases scalarText? v with
  | some text => exact relative_ok (SelectOption.plain text)
  | none =>
    cases v.entries? with
    | none => simpa [mismatch] using relative_error [] (.mismatch .selectOption v.shape)
    | some es =>
      exact (relative_requiredString es "value").bind fun _ =>
        (relative_string es "label").bind fun _ => relative_ok _

/-- Options are read the same wherever their mapping stands. -/
theorem relative_options (es : Entries) :
    Relative fun path => Fields.options ⟨es, path⟩ "options" := by
  simp only [options_eq_items]
  exact relative_items fun _ _ v _ => readsAlone_decodeOption v

/-! ### Settings -/

/-- The fields of a kind are read the same wherever their mapping stands. -/
theorem relative_kind (es : Entries) (type : SettingType) :
    Relative fun path => Fields.kind ⟨es, path⟩ type := by
  cases type with
  | heading =>
    exact (relative_level es _).bind fun _ => (relative_bool es _).bind fun _ => relative_ok _
  | classToggle =>
    exact (relative_bool es _).bind fun _ => (relative_bool es _).bind fun _ => relative_ok _
  | classSelect =>
    exact (relative_bool es _).bind fun _ => (relative_string es _).bind fun _ =>
      (relative_options es).bind fun _ => relative_ok _
  | variableText =>
    exact (relative_string es _).bind fun _ => (relative_bool es _).bind fun _ => relative_ok _
  | variableNumber => exact (relative_numberSpec es).bind fun _ => relative_ok _
  | variableNumberSlider =>
    exact (relative_numberSpec es).bind fun _ => (relative_string es _).bind fun _ =>
      relative_ok _
  | variableSelect =>
    exact (relative_string es _).bind fun _ => (relative_options es).bind fun _ => relative_ok _
  | variableColor =>
    exact (relative_string es _).bind fun _ => (relative_string es _).bind fun _ =>
      (relative_bool es _).bind fun _ => relative_ok _
  | infoText => exact (relative_bool es _).bind fun _ => relative_ok _

/-- A setting is read the same wherever its mapping stands, if its nested settings are. -/
theorem relative_settingOf
    (h : Relative fun path => Fields.items ⟨es, path⟩ "settings" readSetting) :
    Relative fun path => settingOf ⟨es, path⟩ :=
  (relative_type es).bind fun type => (relative_kind es type).bind fun _ =>
    (relative_requiredString es "id").bind fun _ => (relative_string es "title").bind fun _ =>
      (relative_string es "description").bind fun _ => (relative_string es "css").bind fun _ =>
        h.bind fun _ _ => rfl

/-- An item of a list in a mapping is smaller than the value that the mapping is in. -/
theorem sizeOf_of_mem_list {items : List Value} (hes : v.entries? = some es)
    (hitems : es.get? key = some (.list items)) {w : Value} (hw : w ∈ items) :
    sizeOf w < sizeOf v := by
  have hes := Value.sizeOf_of_entries? hes
  have hitems := Value.sizeOf_of_get? hitems
  have hw := List.sizeOf_lt_of_mem hw
  simp only [Value.list.sizeOf_spec] at hitems
  omega

/-- A setting is read as on its own. -/
theorem readsAlone_readSetting (v : Value) : ReadsAlone readSetting v := by
  induction v using Value.size_induction with
  | h v ih =>
    unfold ReadsAlone readSetting
    simp only [decodeSetting_eq]
    cases hes : v.entries? with
    | none => simpa using relative_error [] (.mismatch .mapping v.shape)
    | some es =>
      exact relative_settingOf (relative_items fun items hitems w hw =>
        ih w (sizeOf_of_mem_list hes hitems hw))

end StyleSnippet.Schema
