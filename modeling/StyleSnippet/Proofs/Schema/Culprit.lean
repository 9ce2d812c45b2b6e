import StyleSnippet.Proofs.Schema.Items

/-!
# Errors that name their culprit

A value that is no settings block is refused with a path and a problem. The path, which its text
tells alone, leads to a place where the problem is to be seen: a field that is not there, or a value
of the wrong kind. And whatever lists it goes through, the items in front of the one that it names
can be read.
-/

set_option autoImplicit false

namespace StyleSnippet.Schema

open Yaml

variable {α β : Type} {es : Entries} {path p : Path} {v w : Value} {e : Error} {key : Text}
  {problem : Problem} {items : List Value} {i : Nat}

/-! ## Culprits -/

/-- Whether a value is one that is expected. -/
def Expected.Admits : Expected → Value → Prop
  | mapping, v => ∃ es, v.entries? = some es
  | list, v => ∃ items, v = .list items
  | string, v => ∃ t, scalarText? v = some t
  | boolean, v => ∃ b, v = .bool b
  | number, v => ∃ n, v = .number n
  | selectOption, v => (∃ t, scalarText? v = some t) ∨ ∃ es, v.entries? = some es

/-- Whether a problem is to be seen where a path leads. A field that is null counts as missing. -/
def Wrong (v : Value) (path : Path) : Problem → Prop
  | .missingField => ∃ front key w es, path = front ++ [.field key] ∧ v.follow? front = some w ∧
      w.entries? = some es ∧ (es.get? key = none ∨ es.get? key = some .null)
  | .mismatch expected found => ∃ w, v.follow? path = some w ∧ w.shape = found ∧
      ¬ expected.Admits w ∧ ∀ front key, path = front ++ [.field key] → w ≠ .null
  | .unknownType name => ∃ w, v.follow? path = some w ∧ scalarText? w = some name ∧
      ∀ type : SettingType, type.name ≠ name
  | .levelOutOfRange n => v.follow? path = some (.number n) ∧ ∀ l : Fin 256, n ≠ .int l

/-- Whether an item of the list under a key can be read on its own. -/
def ReadableUnder (key : Text) (item : Value) : Prop :=
  (key = "settings" ∧ ∃ s, decodeSetting [] item.shape item = .ok s) ∨
    (key = "options" ∧ ∃ option, decodeOption [] item = .ok option)

/-- Whether each position on a path is one in the list under a key, all items in front of which can
be read. -/
def ReadBefore (v : Value) (path : Path) : Prop :=
  ∀ front i rest, path = front ++ .item i :: rest →
    ∃ key items, front.getLast? = some (.field key) ∧ v.follow? front = some (.list items) ∧
      ∀ item ∈ items.take i, ReadableUnder key item

/-- Whether a problem is to be seen where a path leads, and the path leads to the first such item of
each list. -/
structure Culprit (v : Value) (path : Path) (problem : Problem) : Prop where
  wrong : Wrong v path problem
  before : ReadBefore v path
  names : ∀ key, .field key ∈ path → IsName key

/-- The path to a culprit starts with a key, and its keys are names. -/
theorem Culprit.isPlain (h : Culprit v path problem) : path.IsPlain := by
  refine ⟨h.names, ?_⟩
  intro i hi
  cases path with
  | nil => simp at hi
  | cons step rest =>
    obtain rfl : step = .item i := by simpa using hi
    obtain ⟨key, items, hkey, -⟩ := h.before [] i rest rfl
    simp at hkey

/-- A path of one key is behind no items. -/
theorem readBefore_field (v : Value) (key : Text) : ReadBefore v [.field key] := by
  intro front i rest h
  rcases front with _ | ⟨step, front⟩
  · simp at h
  · simp at h

/-- What is wrong under a key is a culprit. -/
theorem culprit_field (hkey : IsName key) (h : Wrong v [.field key] problem) :
    Culprit v [.field key] problem := by
  refine ⟨h, readBefore_field v key, ?_⟩
  intro name hname
  obtain rfl : name = key := by simpa using hname
  exact hkey

/-- What is wrong in a part of a value is wrong in the value, with the way to the part in front. -/
theorem Wrong.behind (way : Path) (h : Wrong w p problem) (hp : way ++ p ≠ [])
    (hfollow : ∀ q, way ++ q ≠ [] → v.follow? (way ++ q) = w.follow? q)
    (hentries : way = [] → v.entries? = w.entries?)
    (hway : ∀ front key, way ≠ front ++ [.field key]) : Wrong v (way ++ p) problem := by
  cases problem with
  | missingField =>
    obtain ⟨front, name, x, es, rfl, hx, hes, hname⟩ := h
    by_cases hroot : way ++ front = []
    · obtain ⟨rfl, rfl⟩ := List.append_eq_nil_iff.mp hroot
      obtain rfl := Option.some.inj hx
      exact ⟨[], name, v, es, rfl, rfl, (hentries rfl).trans hes, hname⟩
    · exact ⟨way ++ front, name, x, es, by simp, (hfollow front hroot).trans hx, hes, hname⟩
  | mismatch expected found =>
    obtain ⟨x, hx, hshape, hadmits, hnull⟩ := h
    refine ⟨x, (hfollow p hp).trans hx, hshape, hadmits, ?_⟩
    intro front name heq
    rcases List.eq_nil_or_concat p with rfl | ⟨q, step, rfl⟩
    · rw [List.append_nil] at heq
      exact absurd heq (hway front name)
    · rw [List.concat_eq_append, ← List.append_assoc] at heq
      obtain ⟨-, hstep⟩ := List.append_inj' heq rfl
      exact hnull q name (by rw [List.concat_eq_append, hstep])
  | unknownType name =>
    obtain ⟨x, hx, hname⟩ := h
    exact ⟨x, (hfollow p hp).trans hx, hname⟩
  | levelOutOfRange n => exact ⟨(hfollow p hp).trans h.1, h.2⟩

/-- The culprit in an item is one in the whole. -/
theorem Culprit.item (h : Culprit w p problem) (hkey : IsName key)
    (hitems : es.get? key = some (.list items)) (hw : items[i]? = some w)
    (hbefore : ∀ item ∈ items.take i, ReadableUnder key item) :
    Culprit (.map es) (.field key :: .item i :: p) problem := by
  have hlist : (Value.map es).part? (.field key) = some (.list items) := by
    rw [Value.part?_field (Value.entries?_map es), hitems]
  have hfollow (q : Path) :
      (Value.map es).follow? (.field key :: .item i :: q) = w.follow? q := by
    simp [hlist, hw]
  refine ⟨?_, ?_, ?_⟩
  · refine h.wrong.behind [.field key, .item i] (by simp) (fun q _ => hfollow q)
      (by simp) ?_
    intro front name heq
    simpa using congrArg List.getLast? heq
  · intro front j rest heq
    rcases front with _ | ⟨step, _ | ⟨step', front⟩⟩
    · simp at heq
    · simp only [List.cons_append, List.nil_append, List.cons.injEq, Step.item.injEq] at heq
      obtain ⟨rfl, rfl, -⟩ := heq
      exact ⟨key, items, rfl, by simp [hlist], hbefore⟩
    · simp only [List.cons_append, List.cons.injEq] at heq
      obtain ⟨rfl, rfl, heq⟩ := heq
      obtain ⟨name, items', hlast, hitems', hall⟩ := h.before front j rest heq
      refine ⟨name, items', ?_, by rw [hfollow, hitems'], hall⟩
      cases front with
      | nil => simp at hlast
      | cons step front => simpa using hlast
  · intro name hname
    rcases List.mem_cons.mp hname with heq | hname
    · cases heq
      exact hkey
    · exact h.names name (by simpa using hname)

/-- A culprit in a mapping is one in the mapping with tags. -/
theorem Culprit.of_map (h : Culprit (.map es) path problem) (hv : v.entries? = some es)
    (hpath : path ≠ []) : Culprit v path problem := by
  have hfollow (q : Path) (hq : q ≠ []) : v.follow? q = (Value.map es).follow? q :=
    Value.follow?_of_entries? hv hq
  refine ⟨?_, ?_, h.names⟩
  · exact h.wrong.behind [] hpath hfollow (fun _ => hv) (by simp)
  · intro front i rest heq
    obtain ⟨name, items, hlast, hitems, hall⟩ := h.before front i rest heq
    refine ⟨name, items, hlast, ?_, hall⟩
    rw [hfollow front (by rintro rfl; simp at hlast), hitems]

/-! ## Readings that blame a culprit -/

/-- Whether every error of a reading names a culprit in the mapping that is read. -/
def Blames (es : Entries) (x : Except Error α) : Prop :=
  ∀ e, x = .error e → e.path ≠ [] ∧ Culprit (.map es) e.path e.problem

/-- A reading that succeeds blames nothing. -/
theorem blames_ok (es : Entries) (a : α) : Blames es (.ok a : Except Error α) := by
  intro e h
  cases h

/-- A reading that goes on blames what either of its parts blames. -/
theorem Blames.bind {x : Except Error α} {k : α → Except Error β} (hx : Blames es x)
    (hk : ∀ a, x = .ok a → Blames es (k a)) : Blames es (x >>= k) := by
  intro e h
  cases x with
  | error e' =>
    obtain rfl : e' = e := by simpa [Bind.bind, Except.bind] using h
    exact hx e' rfl
  | ok a => exact hk a rfl e h

/-- A reading may blame what is wrong under a key. -/
theorem blames_field (hkey : IsName key) (h : Wrong (.map es) [.field key] problem) :
    Blames es (.error ⟨[.field key], problem⟩ : Except Error α) := by
  intro e he
  cases he
  exact ⟨by simp, culprit_field hkey h⟩

/-- A path of one key leads to what stands under it. -/
theorem follow?_field (es : Entries) (key : Text) :
    (Value.map es).follow? [.field key] = es.get? key := by
  rw [Value.follow?_singleton, Value.part?_field (Value.entries?_map es)]

/-- A field that does not hold what is expected is to blame. -/
theorem wrong_mismatch {expected : Expected} (hv : Fields.get? ⟨es, path⟩ key = some v)
    (h : ¬ expected.Admits v) :
    Wrong (.map es) [.field key] (.mismatch expected v.shape) := by
  obtain ⟨hget, hnull⟩ := Fields.get?_eq_some_iff.mp hv
  exact ⟨v, by rw [follow?_field, hget], rfl, h, fun _ _ _ => hnull⟩

/-- A field that is read blames its value, if every value that is expected can be read. -/
theorem blames_read (hkey : IsName key) {expected : Expected} {value? : Value → Option α}
    (hvalue : ∀ v, expected.Admits v → value? v ≠ none) :
    Blames es (Fields.read ⟨es, []⟩ key expected value?) := by
  unfold Fields.read
  cases hv : Fields.get? ⟨es, []⟩ key with
  | none => exact blames_ok es _
  | some v =>
    cases ha : value? v with
    | some a =>
      simp only [ha]
      exact blames_ok es _
    | none =>
      simp only [ha]
      exact blames_field hkey (wrong_mismatch hv fun hadmits => hvalue v hadmits ha)

/-- A string that is read blames its field. -/
theorem blames_string (hkey : IsName key) : Blames es (Fields.string ⟨es, []⟩ key) := by
  apply blames_read hkey
  rintro v ⟨t, ht⟩
  simp [ht]

/-- A Boolean that is read blames its field. -/
theorem blames_bool (hkey : IsName key) : Blames es (Fields.bool ⟨es, []⟩ key) := by
  apply blames_read hkey
  rintro v ⟨b, rfl⟩
  simp

/-- A number that is read blames its field. -/
theorem blames_number (hkey : IsName key) : Blames es (Fields.number ⟨es, []⟩ key) := by
  apply blames_read hkey
  rintro v ⟨n, rfl⟩
  simp

/-- A string that has to be there blames its field. -/
theorem blames_requiredString (hkey : IsName key) :
    Blames es (Fields.requiredString ⟨es, []⟩ key) := by
  refine (blames_string hkey).bind fun o ho => ?_
  cases o with
  | some s => exact blames_ok es s
  | none =>
    apply blames_field hkey
    have hget := Fields.get?_eq_none_iff.mp (Fields.read_eq_none_iff.mp ho)
    exact ⟨[], key, .map es, es, rfl, rfl, rfl, hget⟩

/-- A number that is no level is out of the range of levels. -/
theorem ne_of_level?_eq_none {n : Number} (h : Fields.level? n = none) (l : Fin 256) :
    n ≠ .int l := by
  rintro rfl
  have hl : (0 : Int) ≤ l.val ∧ (l.val : Int) < 256 := by omega
  simp [Fields.level?, hl] at h

/-- A level that is read blames its field. -/
theorem blames_level (hkey : IsName key) : Blames es (Fields.level ⟨es, []⟩ key) := by
  refine (blames_number hkey).bind fun o ho => ?_
  cases o with
  | none => exact blames_ok es none
  | some n =>
    cases hlevel : Fields.level? n with
    | some l =>
      simp only [hlevel]
      exact blames_ok es (some l)
    | none =>
      simp only [hlevel]
      apply blames_field hkey
      have hget := Fields.get?_eq_some_iff.mp (Fields.get?_of_number ho)
      exact ⟨by rw [follow?_field, hget.1], ne_of_level?_eq_none hlevel⟩

/-- A type that is read blames its field. -/
theorem blames_type (es : Entries) : Blames es (Fields.type ⟨es, []⟩) := by
  refine (blames_requiredString (by decide)).bind fun name hname => ?_
  cases htype : SettingType.ofName? name with
  | some type => exact blames_ok es type
  | none =>
    apply blames_field (by decide)
    obtain ⟨v, hv, htext⟩ := Fields.exists_of_requiredString hname
    have hget := Fields.get?_eq_some_iff.mp hv
    refine ⟨v, by rw [follow?_field, hget.1], htext, ?_⟩
    rintro type rfl
    rw [SettingType.ofName?_name] at htype
    cases htype

/-- The numbers of a numeric setting blame their fields. -/
theorem blames_numberSpec (es : Entries) : Blames es (Fields.numberSpec ⟨es, []⟩) :=
  (blames_number (by decide)).bind fun _ _ => (blames_number (by decide)).bind fun _ _ =>
    (blames_number (by decide)).bind fun _ _ => (blames_number (by decide)).bind fun _ _ =>
      blames_ok es _

/-! ### Lists -/

variable {read : Path → Value → Except Error α}

/-- Reading a list stops at the first item that cannot be read. -/
theorem exists_of_readItems_error (h : readItems read path i items = .error e) :
    ∃ j v, items[j]? = some v ∧ read (path ++ [.item (i + j)]) v = .error e ∧
      ∀ w ∈ items.take j, ∃ p a, read p w = .ok a := by
  induction items generalizing i with
  | nil => cases h
  | cons v rest ih =>
    unfold readItems at h
    cases hv : read (path ++ [.item i]) v with
    | error e' =>
      rw [hv] at h
      cases h
      exact ⟨0, v, rfl, hv, by simp⟩
    | ok a =>
      rw [hv] at h
      cases hrest : readItems read path (i + 1) rest with
      | ok as =>
        rw [hrest] at h
        cases h
      | error e' =>
        rw [hrest] at h
        cases h
        obtain ⟨j, w, hw, herror, hbefore⟩ := ih hrest
        refine ⟨j + 1, w, hw, ?_, ?_⟩
        · rwa [Nat.add_right_comm] at herror
        · rw [List.take_succ_cons, List.forall_mem_cons]
          exact ⟨⟨_, a, hv⟩, hbefore⟩

/-- A list that is read blames its field or the first of its items that cannot be read. -/
theorem blames_items (hkey : IsName key) (hread : ∀ v a, read [] v = .ok a → ReadableUnder key v)
    (h : ∀ items, es.get? key = some (.list items) → ∀ v ∈ items, ReadsAlone read v ∧
      ∀ e, read [] v = .error e → Culprit v e.path e.problem) :
    Blames es (Fields.items ⟨es, []⟩ key read) := by
  unfold Fields.items
  cases hv : Fields.get? ⟨es, []⟩ key with
  | none => exact blames_ok es []
  | some v =>
    have hget := (Fields.get?_eq_some_iff.mp hv).1
    cases v with
    | list items =>
      intro e he
      obtain ⟨j, w, hw, herror, hbefore⟩ := exists_of_readItems_error he
      have hall := h items hget
      obtain ⟨halone, hculprit⟩ := hall w (List.mem_of_getElem? hw)
      rw [Nat.zero_add] at herror
      obtain ⟨e', he', rfl⟩ := halone.eq_error_iff.mp herror
      refine ⟨by simp [Error.under, Fields.pathTo], ?_⟩
      apply (hculprit e' he').item hkey hget hw
      intro x hx
      obtain ⟨p, a, ha⟩ := hbefore x hx
      exact hread x a ((hall x (List.mem_of_mem_take hx)).1.eq_ok_iff.mp ha)
    | _ =>
      refine blames_field hkey (wrong_mismatch hv ?_)
      rintro ⟨items, hlist⟩
      cases hlist

/-- An error of a mapping's entries names a culprit in the value with those entries. -/
theorem Blames.culprit {x : Except Error α} (h : Blames es x) (hv : v.entries? = some es)
    (he : x = .error e) : Culprit v e.path e.problem := by
  obtain ⟨hpath, hculprit⟩ := h e he
  exact hculprit.of_map hv hpath

/-- A value that is none of what is expected is itself to blame. -/
theorem culprit_nil {expected : Expected} (h : ¬ expected.Admits v) :
    Culprit v [] (.mismatch expected v.shape) := by
  refine ⟨⟨v, rfl, rfl, h, ?_⟩, ?_, by simp⟩
  · intro front key heq
    simp at heq
  · intro front i rest heq
    simp at heq

/-- An option that cannot be read has a culprit. -/
theorem culprit_of_decodeOption (h : decodeOption [] v = .error e) :
    Culprit v e.path e.problem := by
  unfold decodeOption at h
  cases htext : scalarText? v with
  | some t =>
    rw [htext] at h
    cases h
  | none =>
    rw [htext] at h
    cases hv : v.entries? with
    | none =>
      rw [hv] at h
      cases h
      refine culprit_nil ?_
      rintro (⟨t, ht⟩ | ⟨es, hes⟩)
      · rw [htext] at ht
        cases ht
      · rw [hv] at hes
        cases hes
    | some es =>
      rw [hv] at h
      refine Blames.culprit ?_ hv h
      exact (blames_requiredString (by decide)).bind fun _ _ =>
        (blames_string (by decide)).bind fun _ _ => blames_ok es _

/-- Options that are read blame their field or the first option that cannot be read. -/
theorem blames_options (es : Entries) : Blames es (Fields.options ⟨es, []⟩ "options") := by
  rw [options_eq_items]
  apply blames_items (by decide) fun v a ha => Or.inr ⟨rfl, a, ha⟩
  exact fun items _ v _ => ⟨readsAlone_decodeOption v, fun e he => culprit_of_decodeOption he⟩

/-- The fields of a kind blame one of themselves. -/
theorem blames_kind (es : Entries) (type : SettingType) :
    Blames es (Fields.kind ⟨es, []⟩ type) := by
  cases type with
  | heading =>
    exact (blames_level (by decide)).bind fun _ _ => (blames_bool (by decide)).bind fun _ _ =>
      blames_ok es _
  | classToggle =>
    exact (blames_bool (by decide)).bind fun _ _ => (blames_bool (by decide)).bind fun _ _ =>
      blames_ok es _
  | classSelect =>
    exact (blames_bool (by decide)).bind fun _ _ => (blames_string (by decide)).bind fun _ _ =>
      (blames_options es).bind fun _ _ => blames_ok es _
  | variableText =>
    exact (blames_string (by decide)).bind fun _ _ => (blames_bool (by decide)).bind fun _ _ =>
      blames_ok es _
  | variableNumber => exact (blames_numberSpec es).bind fun _ _ => blames_ok es _
  | variableNumberSlider =>
    exact (blames_numberSpec es).bind fun _ _ => (blames_string (by decide)).bind fun _ _ =>
      blames_ok es _
  | variableSelect =>
    exact (blames_string (by decide)).bind fun _ _ => (blames_options es).bind fun _ _ =>
      blames_ok es _
  | variableColor =>
    exact (blames_string (by decide)).bind fun _ _ => (blames_string (by decide)).bind fun _ _ =>
      (blames_bool (by decide)).bind fun _ _ => blames_ok es _
  | infoText => exact (blames_bool (by decide)).bind fun _ _ => blames_ok es _

/-! ### Settings -/

/-- Nested settings that are read blame their field or the first setting that cannot be read. -/
theorem blames_settings (h : ∀ items, es.get? "settings" = some (.list items) → ∀ v ∈ items,
    ∀ e, readSetting [] v = .error e → Culprit v e.path e.problem) :
    Blames es (Fields.items ⟨es, []⟩ "settings" readSetting) := by
  apply blames_items (by decide) fun v s hs => Or.inl ⟨rfl, s, hs⟩
  exact fun items hitems v hv => ⟨readsAlone_readSetting v, h items hitems v hv⟩

/-- A setting that is read blames one of its fields, if its nested settings do. -/
theorem blames_settingOf (h : Blames es (Fields.items ⟨es, []⟩ "settings" readSetting)) :
    Blames es (settingOf ⟨es, []⟩) :=
  (blames_type es).bind fun type _ => (blames_kind es type).bind fun _ _ =>
    (blames_requiredString (by decide)).bind fun _ _ => (blames_string (by decide)).bind fun _ _ =>
      (blames_string (by decide)).bind fun _ _ => (blames_string (by decide)).bind fun _ _ =>
        h.bind fun _ _ => blames_ok es _

/-- A setting that cannot be read has a culprit. -/
theorem culprit_of_readSetting (h : readSetting [] v = .error e) :
    Culprit v e.path e.problem := by
  -- the settings nested in a setting are smaller values
  induction v using Value.size_induction generalizing e with
  | h v ih =>
    unfold readSetting at h
    rw [decodeSetting_eq] at h
    cases hv : v.entries? with
    | none =>
      rw [hv] at h
      cases h
      refine culprit_nil ?_
      rintro ⟨es, hes⟩
      rw [hv] at hes
      cases hes
    | some es =>
      rw [hv] at h
      refine (blames_settingOf (blames_settings ?_)).culprit hv h
      exact fun items hitems w hw e he => ih w (sizeOf_of_mem_list hv hitems hw) he

/-- A value that is refused is either no mapping, which is reported of the root, or the error leads
to a culprit, and the text of its path says no other path. -/
theorem decode_culprit (h : decode v = .error e) :
    (v.entries? = none ∧ e = ⟨[], .mismatch .mapping v.shape⟩ ∧ e.path.text = "<root>") ∨
      (∃ es, v.entries? = some es) ∧ e.path ≠ [] ∧ Path.ofText? e.path.text = some e.path ∧
        Wrong v e.path e.problem ∧ ReadBefore v e.path := by
  unfold decode at h
  cases hv : v.entries? with
  | none =>
    rw [hv] at h
    cases h
    exact Or.inl ⟨rfl, rfl, rfl⟩
  | some es =>
    rw [hv] at h
    have hblames : Blames es (do
        let name ← Fields.string ⟨es, []⟩ "name"
        let id ← Fields.requiredString ⟨es, []⟩ "id"
        let settings ← decodeNested [] es
        return ({ name := name, id := id, settings := settings,
                  extra := extraEntries rootKeys es } : Config)) := by
      rw [decodeNested_eq]
      refine (blames_string (by decide)).bind fun _ _ =>
        (blames_requiredString (by decide)).bind fun _ _ =>
          (blames_settings ?_).bind fun _ _ => blames_ok es _
      exact fun items _ w _ e he => culprit_of_readSetting he
    obtain ⟨hpath, -⟩ := hblames e h
    have hculprit := hblames.culprit hv h
    exact Or.inr ⟨⟨es, rfl⟩, hpath, Path.ofText?_text hculprit.isPlain, hculprit.wrong,
      hculprit.before⟩

/-- A settings block with a labeled option without a value, in a setting that is nested in one with
a tag. -/
def refusedValue : Value := .map
  [entry "id" (.string "a"), entry "settings" (.list [
    .map [entry "type" (.string "heading"), entry "id" (.string "b")],
    .tagged "c" (.map
      [entry "id" (.number (.int 1)), entry "type" (.string "info-text"), entry "settings" (.list [
        .map [entry "id" (.string "d"), entry "type" (.string "class-toggle")],
        .map [entry "id" (.string "e"), entry "type" (.string "variable-select"),
          entry "options" (.list [.bool true, .map [entry "label" (.string "f")]])]])])])]

/-- The error that it is refused with. -/
def refusedError : Error where
  path := [.field "settings", .item 1, .field "settings", .item 1, .field "options", .item 1,
    .field "value"]
  problem := .missingField

/-- The sample is refused for the missing value of an option two settings deep, behind items that
can be read. -/
theorem decode_culprit_nested : decode refusedValue = .error refusedError ∧
    refusedError.path.text = "settings[1].settings[1].options[1].value" ∧
      Path.ofText? "settings[1].settings[1].options[1].value" = some refusedError.path ∧
        Wrong refusedValue refusedError.path .missingField ∧
          ReadBefore refusedValue refusedError.path := by
  have h : decode refusedValue = .error refusedError := rfl
  have htext : refusedError.path.text = "settings[1].settings[1].options[1].value" := by
    decide +kernel
  obtain ⟨hnone, -⟩ | ⟨-, -, hpath, hwrong, hbefore⟩ := decode_culprit h
  · cases hnone
  · exact ⟨h, htext, htext ▸ hpath, hwrong, hbefore⟩

end StyleSnippet.Schema
