import SchemaPlan.Client
import SchemaPlan.Proofs.Actions
import SchemaPlan.Proofs.Documents
set_option autoImplicit false

/-!
# Saving and loading

The text of a snapshot or of a schema is read back as what was written,
normalized; what was loaded is normal already, so it is reproduced as it is
(`save_load`).

One way of reading takes a schema back only with an exception.  `Schema.load` makes
a value of the document first, and there a map whose first key is
`Json.embeddedKey` is taken for an embedded document.  A schema that holds a table
or a column under this key can be saved and is read by `Schema.ofText`, but
`Schema.load` refuses it if no other key comes before.
-/

namespace SchemaPlan

/-! ## Normal forms -/

/-- A thing that has a name, or nothing to be named after, keeps its name. -/
theorem ite_name_eq_self {key name : String} (h : name = "" → key = "") :
    (if name == "" then key else name) = name := by
  split
  · next hempty => rw [beq_iff_eq.1 hempty, h (beq_iff_eq.1 hempty)]
  · rfl

theorem eq_empty_of_ite_name {key name : String} (h : (if name == "" then key else name) = "") :
    key = "" := by
  split at h
  · exact h
  · next hnamed => exact absurd (beq_iff_eq.2 h) hnamed

namespace Column

theorem name_cleanDefault (c : Column) : c.cleanDefault.name = c.name := by
  rw [cleanDefault]
  split <;> rfl

theorem hasIdleDefault_cleanDefault (c : Column) : c.cleanDefault.hasIdleDefault = false := by
  rw [cleanDefault]
  split
  · rfl
  · next h => exact Bool.eq_false_iff.2 h

/-- A column is normal if it is named, or has no key either, and its default says
something. -/
theorem normalize_eq_self {key : String} {c : Column} (hname : c.name = "" → key = "")
    (hdefault : c.hasIdleDefault = false) : normalize key c = c := by
  rw [normalize, ite_name_eq_self hname, cleanDefault, if_neg]
  rw [Bool.not_eq_true]
  exact hdefault

theorem normalize_normalize (key : String) (c : Column) :
    normalize key (normalize key c) = normalize key c := by
  refine normalize_eq_self (fun h => ?_) (hasIdleDefault_cleanDefault _)
  rw [normalize, name_cleanDefault] at h
  exact eq_empty_of_ite_name h

end Column

namespace Keyed

variable {α : Type}

/-- A function that keeps each value under its key keeps the map. -/
theorem mapValues_eq_self {f : String → α → α} {map : Keyed α}
    (h : ∀ {key a}, map.get? key = some a → f key a = a) : map.mapValues f = map := by
  refine ext_get? fun key => ?_
  rw [get?_mapValues]
  cases hget : map.get? key with
  | none => rfl
  | some a => exact congrArg some (h hget)

theorem mapValues_mapValues {f : String → α → α} (h : ∀ key a, f key (f key a) = f key a)
    (map : Keyed α) : (map.mapValues f).mapValues f = map.mapValues f := by
  refine mapValues_eq_self fun {key a} hget => ?_
  obtain ⟨b, -, rfl⟩ := get?_mapValues_eq_some_iff.1 hget
  exact h key b

end Keyed

namespace Table

/-- A table is normal if it is named, or has no key either, and its columns are
normal. -/
theorem normalize_eq_self {key : String} {t : Table} (hname : t.name = "" → key = "")
    (hcolumns : t.columns.mapValues Column.normalize = t.columns) : normalize key t = t := by
  rw [normalize, ite_name_eq_self hname, hcolumns]

theorem normalize_normalize (key : String) (t : Table) :
    normalize key (normalize key t) = normalize key t :=
  normalize_eq_self eq_empty_of_ite_name
    (Keyed.mapValues_mapValues Column.normalize_normalize t.columns)

end Table

/-- A normalized schema is normal. -/
theorem Schema.normalize_normalize (s : Schema) : s.normalize.normalize = s.normalize :=
  congrArg (fun tables => { s with tables := tables })
    (Keyed.mapValues_mapValues Table.normalize_normalize s.tables)

/-- A normalized snapshot is normal. -/
theorem Snapshot.normalize_normalize (l : Snapshot) : l.normalize.normalize = l.normalize := by
  rw [normalize, normalize, List.map_map]
  exact congrArg Snapshot.mk (List.map_congr_left fun s _ => s.normalize_normalize)

/-! ## Texts -/

/-- A plain document that is not too deep is made a value as it stands. -/
theorem Json.ofText?_pretty {j : Json} (hplain : j.IsPlain) (hdepth : j.depth ≤ depthLimit) :
    ofText? j.pretty = toValue? (valueOfText? j.pretty.length) j := by
  rw [ofText?, valueOfText?, parse?_pretty hplain]
  exact if_pos hdepth

theorem readDocument_pretty {α : Type} {decode : Json.Decoder α} {j : Json} {a : α}
    (hplain : j.IsPlain) (h : decode j = .ok a) : readDocument decode j.pretty = .ok a := by
  rw [readDocument, Json.parse?_pretty hplain]
  simp only [h]

namespace Snapshot

/-- The text of a snapshot is read as the snapshot, normalized. -/
theorem ofText_text (l : Snapshot) : ofText l.text = .ok l.normalize := by
  rw [ofText, text, readDocument_pretty l.isPlain_toJson l.decode_toJson]

/-- Whatever is read is normal. -/
theorem normalize_of_ofText {text : String} {l : Snapshot} (h : ofText text = .ok l) :
    l.normalize = l := by
  unfold ofText at h
  split at h
  · exact nomatch h
  · next raw _ =>
    obtain rfl := Except.ok.inj h
    exact raw.normalize_normalize

end Snapshot

namespace Schema

/-- The text of a schema is read as the schema, normalized. -/
theorem ofText_text (s : Schema) : ofText s.text = .ok s.normalize := by
  rw [ofText, text, readDocument_pretty s.isPlain_toJson s.decode_toJson]

theorem ofText?_text (s : Schema) :
    ∃ embedded, Json.ofText? s.text = Json.toValue? embedded s.toJson :=
  ⟨_, Json.ofText?_pretty s.isPlain_toJson
    (s.depth_toJson_le.trans (by rw [Json.depthLimit]; omega))⟩

/-- A file that holds a single schema holds the one that is meant, unless it looks
like an embedded document. -/
theorem select_text (path : String) (s : Schema) :
    select path none s.text
      = if s.looksEmbedded then .error .malformedText else .ok s.normalize := by
  obtain ⟨embedded, hvalue⟩ := s.ofText?_text
  rw [select, hvalue]
  cases h : s.looksEmbedded with
  | true =>
    rw [toValue?_eq_none h embedded]
    rfl
  | false =>
    obtain ⟨v, hv, hschemas, hdecode⟩ := decode_value embedded h
    rw [hv]
    simp only [hschemas, readValue, hdecode]
    rfl

theorem normalize_of_ofText {text : String} {s : Schema} (h : ofText text = .ok s) :
    s.normalize = s := by
  unfold ofText at h
  split at h
  · exact nomatch h
  · next raw _ =>
    obtain rfl := Except.ok.inj h
    exact raw.normalize_normalize

theorem normalize_of_select {path text : String} {name : Option String} {s : Schema}
    (h : select path name text = .ok s) : s.normalize = s := by
  obtain ⟨raw, rfl⟩ : ∃ raw : Schema, s = raw.normalize := by
    unfold select at h
    repeat' split at h
    all_goals first
      | exact ⟨_, (Except.ok.inj h).symm⟩
      | exact nomatch h
  exact raw.normalize_normalize

end Schema

/-! ## Files -/

/-- A snapshot that was saved is loaded, normalized. -/
theorem Snapshot.load_of_save {l : Snapshot} {path : String} {w w₁ : World}
    (h : l.save path w = (.ok (), w₁)) : load path w₁ = (.ok l.normalize, w₁) := by
  rw [load, Action.bind_of_ok (Action.readFile_of_writeFile h), Action.ofExcept, ofText_text]

/-- A schema that was saved is loaded, normalized, unless it looks like an embedded
document. -/
theorem Schema.load_of_save {s : Schema} {path : String} {w w₁ : World}
    (h : s.save path w = (.ok (), w₁)) :
    load path none w₁
      = (if s.looksEmbedded then .error .malformedText else .ok s.normalize, w₁) := by
  rw [load, Action.bind_of_ok (Action.readFile_of_writeFile h), Action.ofExcept, select_text]

/-! ## The round trip -/

/-- A snapshot comes back from its text and from its file. -/
structure Snapshot.RoundTrips (l : Snapshot) : Prop where
  text : ofText l.text = .ok l.normalize
  file : ∀ {path w w₁}, l.save path w = (.ok (), w₁) → load path w₁ = (.ok l.normalize, w₁)
  /-- Saving what was loaded and loading it again changes nothing. -/
  again : ofText l.normalize.text = .ok l.normalize
  /-- What was read from whatever text is reproduced as it is. -/
  loaded : ∀ {source}, ofText source = .ok l → ofText l.text = .ok l

/-- A schema comes back from its text.  It comes back from its file if it does not
look like an embedded document, and else the file is refused. -/
structure Schema.RoundTrips (s : Schema) : Prop where
  text : ofText s.text = .ok s.normalize
  file : ∀ {path w w₁}, s.save path w = (.ok (), w₁) →
    load path none w₁
      = (if s.looksEmbedded then .error .malformedText else .ok s.normalize, w₁)
  select : ∀ path, select path none s.text
    = if s.looksEmbedded then .error .malformedText else .ok s.normalize
  again : ofText s.normalize.text = .ok s.normalize
  loaded : ∀ {source}, ofText source = .ok s → ofText s.text = .ok s
  selected : ∀ {path name source}, Schema.select path name source = .ok s →
    Schema.select path none s.text = if s.looksEmbedded then .error .malformedText else .ok s

theorem Snapshot.roundTrips (l : Snapshot) : l.RoundTrips where
  text := l.ofText_text
  file := load_of_save
  again := by rw [ofText_text, normalize_normalize]
  loaded h := by rw [ofText_text, normalize_of_ofText h]

theorem Schema.roundTrips (s : Schema) : s.RoundTrips where
  text := s.ofText_text
  file := load_of_save
  select path := s.select_text path
  again := by rw [ofText_text, normalize_normalize]
  loaded h := by rw [ofText_text, normalize_of_ofText h]
  selected h := by rw [select_text, normalize_of_select h]

/-- Every snapshot and every schema makes the round trip. -/
theorem save_load (l : Snapshot) (s : Schema) : l.RoundTrips ∧ s.RoundTrips :=
  ⟨l.roundTrips, s.roundTrips⟩

/-- A schema with a table under the key of an embedded document is saved and read
as a text, but the file is refused. -/
theorem save_load_embeddedKey :
    Schema.ofText (Schema.text { tables := .ofList [(Json.embeddedKey, {})] })
        = .ok (Schema.normalize { tables := .ofList [(Json.embeddedKey, {})] })
      ∧ Schema.select "tables.json" none
          (Schema.text { tables := .ofList [(Json.embeddedKey, {})] })
        = .error .malformedText :=
  ⟨Schema.ofText_text _, Schema.select_text _ _⟩

end SchemaPlan
