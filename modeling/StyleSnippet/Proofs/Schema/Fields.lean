import StyleSnippet.Schema.Decode
import StyleSnippet.Schema.Encode

/-!
# Fields that are read as they were written

The entries of a mapping are of two sorts: those whose keys are fields, and the foreign ones. A
field is found among the entries of the first sort only, and an optional field is read as the
value that its entry was written for. So the fields of a kind are read as they were written,
wherever in a mapping they stand.
-/

set_option autoImplicit false

namespace StyleSnippet.Schema

variable {fields : List Text} {es es' : Yaml.Entries} {key : Text} {f : Fields}

/-! ## Declared and foreign entries -/

/-- Whether every entry stands under one of the given fields. -/
def Declared (fields : List Text) (entries : Yaml.Entries) : Prop :=
  ∀ e ∈ entries, ∃ key ∈ fields, e.1 = .string key

/-- Whether no entry stands under one of the given fields, not even under a tagged one. -/
def Foreign (fields : List Text) (entries : Yaml.Entries) : Prop :=
  ∀ e ∈ entries, ∀ key ∈ e.1.text?, key ∉ fields

/-- No entries stand under given fields. -/
@[simp] theorem declared_nil (fields : List Text) : Declared fields [] := by
  simp [Declared]

/-- Entries stand under given fields just if the first one does and the rest do. -/
@[simp] theorem declared_entry {v : Yaml.Value} :
    Declared fields (entry key v :: es) ↔ key ∈ fields ∧ Declared fields es := by
  simp [Declared, entry]

/-- Entries that are put together stand under given fields just if both parts do. -/
@[simp] theorem declared_append :
    Declared fields (es ++ es') ↔ Declared fields es ∧ Declared fields es' :=
  List.forall_mem_append

/-- A field that may be missing stands under its key. -/
@[simp] theorem declared_optional {α : Type} {value : α → Yaml.Value} {o : Option α}
    (hkey : key ∈ fields) : Declared fields (optional key value o) := by
  cases o <;> simp [optional, hkey]

/-- Entries under given fields stand under more fields, too. -/
theorem Declared.mono {l : List Text} (h : Declared fields es) (hsub : fields ⊆ l) :
    Declared l es := by
  intro e he
  obtain ⟨key, hkey, heq⟩ := h e he
  exact ⟨key, hsub hkey, heq⟩

/-- Entries under given fields stand under no other key. -/
theorem Declared.ne_string (h : Declared fields es) (hkey : key ∉ fields) :
    ∀ e ∈ es, e.1 ≠ .string key := by
  intro e he heq
  obtain ⟨name, hname, heq'⟩ := h e he
  rw [heq, Yaml.Value.string.injEq] at heq'
  exact hkey (heq' ▸ hname)

/-- Foreign entries stand under none of the given fields. -/
theorem Foreign.ne_string (h : Foreign fields es) (hkey : key ∈ fields) :
    ∀ e ∈ es, e.1 ≠ .string key := by
  intro e he heq
  exact h e he key (by rw [heq]; rfl) hkey

/-- The foreign entries of a mapping stand under none of the fields. -/
theorem foreign_extraEntries (fields : List Text) (es : Yaml.Entries) :
    Foreign fields (extraEntries fields es) := by
  intro e he key hkey
  have hkeep := (List.mem_filter.mp he).2
  rw [Option.mem_def] at hkey
  rw [hkey] at hkeep
  exact of_decide_eq_true hkeep

/-- All foreign entries are kept. -/
theorem extraEntries_of_foreign (h : Foreign fields es) : extraEntries fields es = es := by
  rw [extraEntries, List.filter_eq_self]
  intro e he
  cases hkey : e.1.text? with
  | none => rfl
  | some key => exact decide_eq_true (h e he key hkey)

/-- No declared entry is kept. -/
theorem extraEntries_of_declared (h : Declared fields es) : extraEntries fields es = [] := by
  rw [extraEntries, List.filter_eq_nil_iff]
  intro e he
  obtain ⟨key, hkey, heq⟩ := h e he
  rw [heq]
  simpa [Yaml.Value.text?, Yaml.Value.untagged] using hkey

/-- The foreign entries of two mappings are put together. -/
theorem extraEntries_append (fields : List Text) (es es' : Yaml.Entries) :
    extraEntries fields (es ++ es') = extraEntries fields es ++ extraEntries fields es' :=
  List.filter_append es es'

/-! ## Looking up a field -/

/-- A key is looked up in the first entries, and then in the others. -/
@[simp] theorem get?_append (es es' : Yaml.Entries) (key : Text) :
    Yaml.Entries.get? (es ++ es') key = (es.get? key).or (es'.get? key) :=
  List.findSome?_append

/-- A field is not found where no entry stands under it. -/
theorem get?_eq_none (h : ∀ e ∈ es, e.1 ≠ .string key) : es.get? key = none := by
  rw [Yaml.Entries.get?, List.findSome?_eq_none_iff]
  intro e he
  split
  · next s hs =>
    rw [if_neg]
    rintro rfl
    exact h e he hs
  · rfl

/-- Nothing stands under a key that is not among the fields. -/
theorem Declared.get?_eq_none (h : Declared fields es) (hkey : key ∉ fields) :
    es.get? key = none :=
  Schema.get?_eq_none (h.ne_string hkey)

/-- No foreign entry stands under a field. -/
theorem Foreign.get?_eq_none (h : Foreign fields es) (hkey : key ∈ fields) :
    es.get? key = none :=
  Schema.get?_eq_none (h.ne_string hkey)

/-- Nothing stands under a key where there are no entries. -/
@[simp] theorem get?_nil (key : Text) : Yaml.Entries.get? [] key = none := rfl

/-- A key is looked up in the first entry, and then in the rest. -/
@[simp] theorem get?_entry (name : Text) (v : Yaml.Value) (es : Yaml.Entries) (key : Text) :
    Yaml.Entries.get? (entry name v :: es) key = if name = key then some v else es.get? key := by
  by_cases h : name = key <;> simp [Yaml.Entries.get?, entry, h]

/-- A field that may be missing is found under its key if it is there. -/
@[simp] theorem get?_optional {α : Type} (name : Text) (value : α → Yaml.Value) (o : Option α)
    (key : Text) : Yaml.Entries.get? (optional name value o) key =
      if name = key then o.map value else none := by
  cases o <;> simp [optional]

/-! ## Reading a field -/

/-- Two readings in a row succeed just if the first one does and the second one does behind it. -/
theorem bind_eq_ok {α β : Type} {x : Except Error α} {k : α → Except Error β} {b : β} :
    x >>= k = .ok b ↔ ∃ a, x = .ok a ∧ k a = .ok b := by
  cases x <;> simp [bind, Except.bind]

namespace Fields

/-- An optional field is read as the value that its entry was written for. -/
theorem read_eq {α : Type} {value : α → Yaml.Value} {value? : Yaml.Value → Option α}
    {expected : Expected} {o : Option α} (hnull : ∀ a, value a ≠ .null)
    (hvalue : ∀ a, value? (value a) = some a) (h : f.entries.get? key = o.map value) :
    f.read key expected value? = .ok o := by
  cases o with
  | none => simp [read, get?, h]
  | some a =>
    have hget : f.get? key = some (value a) := by
      rw [get?, h, Option.map_some]
      split
      · next heq => exact absurd (Option.some.inj heq) (hnull a)
      · rfl
    simp [read, hget, hvalue]

/-- A string is read as it was written, and so is its absence. -/
theorem string_eq {o : Option Text} (h : f.entries.get? key = o.map .string) :
    f.string key = .ok o :=
  read_eq (by simp) (fun _ => rfl) h

/-- A string that has to be there is read as it was written. -/
theorem requiredString_eq {s : Text} (h : f.entries.get? key = some (.string s)) :
    f.requiredString key = .ok s := by
  rw [requiredString, string_eq (o := some s) h]
  rfl

/-- A Boolean is read as it was written, and so is its absence. -/
theorem bool_eq {o : Option Bool} (h : f.entries.get? key = o.map .bool) : f.bool key = .ok o :=
  read_eq (by simp) (fun _ => rfl) h

/-- A number is read as it was written, and so is its absence. -/
theorem number_eq {o : Option Number} (h : f.entries.get? key = o.map .number) :
    f.number key = .ok o :=
  read_eq (by simp) (fun _ => rfl) h

/-- A level is read as it was written. -/
theorem level_eq {l : Fin 256} (h : f.entries.get? key = some (.number (.int l.val))) :
    f.level key = .ok (some l) := by
  have hlevel : level? (.int l.val) = some l := by
    have hl : (0 : Int) ≤ l.val ∧ (l.val : Int) < 256 := by omega
    simp [level?, hl]
  rw [level, number_eq (o := some (.int l.val)) h]
  simp only [bind, Except.bind, hlevel]
  rfl

/-- The numbers of a numeric setting are read as they were written. -/
theorem numberSpec_eq {n : NumberSpec}
    (hdefault : f.entries.get? "default" = n.default.map .number)
    (hmin : f.entries.get? "min" = n.min.map .number)
    (hmax : f.entries.get? "max" = n.max.map .number)
    (hstep : f.entries.get? "step" = n.step.map .number) : f.numberSpec = .ok n := by
  rw [numberSpec, number_eq hdefault, number_eq hmin, number_eq hmax, number_eq hstep]
  rfl

end Fields

/-- An option is read as it was written. -/
theorem decodeOption_encodeOption (path : Path) (option : SelectOption) :
    decodeOption path (encodeOption option) = .ok option := by
  cases option with
  | plain value => rfl
  | labeled label value =>
    have hvalue : Fields.requiredString
        ⟨[entry "label" (.string label), entry "value" (.string value)], path⟩ "value" =
        .ok value := Fields.requiredString_eq (by simp)
    have hlabel : Fields.string
        ⟨[entry "label" (.string label), entry "value" (.string value)], path⟩ "label" =
        .ok (some label) := Fields.string_eq (by simp)
    simp only [encodeOption, decodeOption, scalarText?, Yaml.Value.entries?, Yaml.Value.untagged,
      hvalue, hlabel]
    rfl

/-- Options are read as they were written, from any position on. -/
theorem decodeOptions_map (path : Path) (i : Nat) (options : List SelectOption) :
    decodeOptions path i (options.map encodeOption) = .ok options := by
  induction options generalizing i with
  | nil => rfl
  | cons option options ih =>
    rw [List.map_cons, decodeOptions, decodeOption_encodeOption, ih]
    rfl

namespace Fields

/-- A list of options is read as it was written. -/
theorem options_eq {l : List SelectOption}
    (h : f.entries.get? key = some (encodeOptions l)) : f.options key = .ok l := by
  have hget : f.get? key = some (encodeOptions l) := by
    rw [get?, h]
    rfl
  rw [Fields.options, hget]
  exact decodeOptions_map _ _ _

/-- The fields of a kind are read as they were written. -/
theorem kind_eq {kind : SettingKind} (h : ∀ key ∈ kindKeys kind.type,
    f.entries.get? key = Yaml.Entries.get? (encodeKind kind) key) :
    f.kind kind.type = .ok kind := by
  cases kind with
  | heading level collapsed =>
    simp only [kindKeys, SettingKind.type, List.forall_mem_cons] at h
    obtain ⟨hlevel, hcollapsed, -⟩ := h
    rw [SettingKind.type, Fields.kind, level_eq (l := level) (hlevel.trans (by simp [encodeKind])),
      bool_eq (o := collapsed) (hcollapsed.trans (by simp [encodeKind]))]
    rfl
  | classToggle default addCommand =>
    simp only [kindKeys, SettingKind.type, List.forall_mem_cons] at h
    obtain ⟨hdefault, hcommand, -⟩ := h
    rw [SettingKind.type, Fields.kind,
      bool_eq (o := default) (hdefault.trans (by simp [encodeKind])),
      bool_eq (o := addCommand) (hcommand.trans (by simp [encodeKind]))]
    rfl
  | classSelect allowEmpty default options =>
    simp only [kindKeys, SettingKind.type, List.forall_mem_cons] at h
    obtain ⟨hallow, hdefault, hoptions, -⟩ := h
    rw [SettingKind.type, Fields.kind,
      bool_eq (o := allowEmpty) (hallow.trans (by simp [encodeKind])),
      string_eq (o := default) (hdefault.trans (by simp [encodeKind])),
      options_eq (l := options) (hoptions.trans (by simp [encodeKind]))]
    rfl
  | variableText default quotes =>
    simp only [kindKeys, SettingKind.type, List.forall_mem_cons] at h
    obtain ⟨hdefault, hquotes, -⟩ := h
    rw [SettingKind.type, Fields.kind,
      string_eq (o := default) (hdefault.trans (by simp [encodeKind])),
      bool_eq (o := quotes) (hquotes.trans (by simp [encodeKind]))]
    rfl
  | variableNumber spec =>
    simp only [kindKeys, SettingKind.type, List.forall_mem_cons] at h
    obtain ⟨hdefault, hmin, hmax, hstep, -⟩ := h
    rw [SettingKind.type, Fields.kind, numberSpec_eq (n := spec)
      (hdefault.trans (by simp [encodeKind, encodeNumberSpec]))
      (hmin.trans (by simp [encodeKind, encodeNumberSpec]))
      (hmax.trans (by simp [encodeKind, encodeNumberSpec]))
      (hstep.trans (by simp [encodeKind, encodeNumberSpec]))]
    rfl
  | variableNumberSlider spec format =>
    simp only [kindKeys, SettingKind.type, List.forall_mem_cons] at h
    obtain ⟨hdefault, hmin, hmax, hstep, hformat, -⟩ := h
    rw [SettingKind.type, Fields.kind, numberSpec_eq (n := spec)
      (hdefault.trans (by simp [encodeKind, encodeNumberSpec]))
      (hmin.trans (by simp [encodeKind, encodeNumberSpec]))
      (hmax.trans (by simp [encodeKind, encodeNumberSpec]))
      (hstep.trans (by simp [encodeKind, encodeNumberSpec])),
      string_eq (o := format) (hformat.trans (by simp [encodeKind, encodeNumberSpec]))]
    rfl
  | variableSelect default options =>
    simp only [kindKeys, SettingKind.type, List.forall_mem_cons] at h
    obtain ⟨hdefault, hoptions, -⟩ := h
    rw [SettingKind.type, Fields.kind,
      string_eq (o := default) (hdefault.trans (by simp [encodeKind])),
      options_eq (l := options) (hoptions.trans (by simp [encodeKind]))]
    rfl
  | variableColor default format opacity =>
    simp only [kindKeys, SettingKind.type, List.forall_mem_cons] at h
    obtain ⟨hdefault, hformat, hopacity, -⟩ := h
    rw [SettingKind.type, Fields.kind,
      string_eq (o := default) (hdefault.trans (by simp [encodeKind])),
      string_eq (o := format) (hformat.trans (by simp [encodeKind])),
      bool_eq (o := opacity) (hopacity.trans (by simp [encodeKind]))]
    rfl
  | infoText markdown =>
    simp only [kindKeys, SettingKind.type, List.forall_mem_cons] at h
    obtain ⟨hmarkdown, -⟩ := h
    rw [SettingKind.type, Fields.kind,
      bool_eq (o := markdown) (hmarkdown.trans (by simp [encodeKind]))]
    rfl

end Fields

/-- No common field is a field of a kind. -/
theorem disjoint_kindKeys (type : SettingType) : ∀ key ∈ commonKeys, key ∉ kindKeys type := by
  cases type <;> decide

/-- The fields of a kind stand under the keys of its type. -/
theorem declared_encodeKind (kind : SettingKind) :
    Declared (kindKeys kind.type) (encodeKind kind) := by
  cases kind <;> simp [encodeKind, encodeNumberSpec, kindKeys, SettingKind.type]

end StyleSnippet.Schema
