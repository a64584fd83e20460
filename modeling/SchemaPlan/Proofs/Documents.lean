import SchemaPlan.Proofs.Json.Reading
import SchemaPlan.Proofs.Json.Records
import SchemaPlan.Snapshot.Document
set_option autoImplicit false

/-!
# Columns, tables and schemas as documents

What each record is written as is read back as the record (`decode_toJson`), and so
is the value made of it (`decode_value`).  Only where the first table, or the first
column of some table, is held under the key of an embedded document is there no
value (`Schema.toValue?_eq_none`): the object of that map is taken for such a
document, whose text it does not give.
-/

namespace SchemaPlan

open Json (Field RecordFormat)

/-! ## Leaves -/

namespace Json

/-- A natural number below the bound is read, if it fits 64 bits. -/
theorem readBounded_ofNat {bound n : Nat} (h : n < bound) (hfits : n < Numeric.naturalBound)
    (expected : String) : readBounded bound expected (.ofNat n) = .ok n := by
  rw [ofNat, readBounded, Number.reading_ofNat hfits]
  exact if_pos h

theorem readUInt64_toNat (n : UInt64) : readUInt64 (.ofNat n.toNat) = .ok n := by
  rw [readUInt64, readBounded_ofNat n.toNat_lt n.toNat_lt, Except.map, UInt64.ofNat_toNat]

theorem readCount_ofNat {n : Nat} (h : n < Numeric.naturalBound) :
    readCount (.ofNat n) = .ok n :=
  readBounded_ofNat h h "usize"

theorem toValue?_toNat (embedded : String → Option Json) (n : UInt64) :
    toValue? embedded (.ofNat n.toNat) = some (.ofNat n.toNat) :=
  toValue?_ofNat n.toNat_lt

end Json

theorem ColumnKey.decode_toJson (key : ColumnKey) : decode key.toJson = .ok key := by
  rw [decode, toJson, Json.readVariant, ofCode?_code]

/-! ## Columns -/

namespace Column

/-- The values of a column's fields. -/
def values (c : Column) : List Json := [
  .string c.name, .string c.default, .bool c.isNullable, .bool c.isUnsigned, .string c.dataType,
  .ofNat c.maxLength.toNat, .ofNat c.precision.toNat, .string c.charSet, .string c.collation,
  .string c.columnType, c.columnKey.toJson, .ofNat c.numericScale.toNat, .string c.extra]

theorem format_isRegular : format.IsRegular where
  names := by decide
  commute := by simp [format, Field.commutes_of]

theorem decode_values (c : Column) : format.decode (.array c.values) = .ok c := by
  simp only [RecordFormat.decode, values, format, RecordFormat.readItems, Field.of,
    Json.readText, Json.readBool, Json.readUInt64_toNat, ColumnKey.decode_toJson, Except.map]

/-- A column is read back from what it is written as. -/
theorem decode_toJson (c : Column) : decode c.toJson = .ok c :=
  RecordFormat.decode_object format_isRegular rfl c.decode_values (.refl _)

/-- A column is read back from the value of what it is written as. -/
theorem decode_value (embedded : String → Option Json) (c : Column) :
    ∃ v, Json.toValue? embedded c.toJson = some v ∧ decode v = .ok c := by
  have hvalues :
      List.Forall₂ (fun j v => Json.toValue? embedded j = some v) c.values c.values := by
    simp only [values, List.forall₂_cons, List.forall₂_nil_left_iff, Json.toValue?_toNat,
      ColumnKey.toJson, Json.toValue?, and_self]
  obtain ⟨members, hvalue, -, hread⟩ :=
    RecordFormat.decode_value format_isRegular hvalues rfl c.decode_values rfl
  exact ⟨.object members, hvalue, hread⟩

theorem isPlain_toJson (c : Column) : c.toJson.IsPlain := by
  simp only [toJson, Json.IsPlain, Json.MembersArePlain, Json.isPlain_ofNat, ColumnKey.toJson,
    and_self]

theorem depth_toJson (c : Column) : c.toJson.depth = 1 := rfl

end Column

/-! ## Maps -/

namespace Keyed

variable {α : Type} {toJson : α → Json}

/-- Whether the object of a map is taken for an embedded document: its first key
says so. -/
def looksEmbedded (map : Keyed α) : Bool := map.keys.head? == some Json.embeddedKey

theorem embeds_entries (toJson : α → Json) (map : Keyed α) :
    Json.embeds (map.entries.map fun e => (e.1, toJson e.2)) = map.looksEmbedded := by
  rw [looksEmbedded, keys]
  cases map.entries with
  | nil => rfl
  | cons e rest => rfl

/-- A map whose values are objects is no embedded document. -/
theorem toValue?_eq_none (toJson : α → Json)
    (hobject : ∀ a, ∃ members, toJson a = .object members)
    {map : Keyed α} (h : map.looksEmbedded = true) (embedded : String → Option Json) :
    Json.toValue? embedded (map.toJson toJson) = none := by
  rw [Keyed.toJson, Json.toValue?, embeds_entries, h]
  cases map.entries with
  | nil => rfl
  | cons e rest =>
    obtain ⟨members, hmembers⟩ := hobject e.2
    rw [List.map_cons, hmembers]
    cases rest <;> rfl

theorem isPlain_toJson (h : ∀ a, (toJson a).IsPlain) (map : Keyed α) :
    (map.toJson toJson).IsPlain := by
  rw [Keyed.toJson, Json.IsPlain, Json.membersArePlain_iff, List.forall_mem_map]
  exact fun e _ => h e.2

theorem depth_toJson_le {n : Nat} (h : ∀ a, (toJson a).depth ≤ n) (map : Keyed α) :
    (map.toJson toJson).depth ≤ n + 1 := by
  rw [Keyed.toJson, Json.depth, Nat.add_le_add_iff_right, Json.depthOfMembers_le_iff,
    List.forall_mem_map]
  exact fun e _ => h e.2

end Keyed

/-! ## Tables -/

namespace Table

/-- The values of a table's fields, given that of its columns. -/
def values (t : Table) (columns : Json) : List Json := [
  .string t.name, .string t.engine, .ofNat t.version.toNat, .string t.rowFormat,
  .string t.collation, .string t.characterSet, columns]

theorem format_isRegular : format.IsRegular where
  names := by decide
  commute := by simp [format, Field.commutes_of]

theorem decode_values {t : Table} {members : List (String × Json)}
    (h : Json.readKeyed Column.decode (.object members) = .ok t.columns) :
    format.decode (.array (t.values (.object members))) = .ok t := by
  simp only [RecordFormat.decode, values, format, RecordFormat.readItems, Field.of,
    Json.readText, Json.readUInt64_toNat, Json.readNullAs, h, Except.map]

/-- A table is read back from what it is written as. -/
theorem decode_toJson (t : Table) : decode t.toJson = .ok t := by
  have hcolumns := Json.readKeyed_object t.columns
    (Json.readAs_map fun e _ => e.2.decode_toJson)
  exact RecordFormat.decode_object format_isRegular rfl (decode_values hcolumns) (.refl _)

/-- A table is read back from the value of what it is written as. -/
theorem decode_value (embedded : String → Option Json) {t : Table}
    (h : t.columns.looksEmbedded = false) :
    ∃ v, Json.toValue? embedded t.toJson = some v ∧ decode v = .ok t := by
  obtain ⟨columns, hcolumns, hread⟩ := Json.toValue?_keyed t.columns
    ((Keyed.embeds_entries _ _).trans h) fun e _ => e.2.decode_value embedded
  have hvalues : List.Forall₂ (fun j v => Json.toValue? embedded j = some v)
      (t.values (t.columns.toJson Column.toJson)) (t.values (.object columns)) := by
    simp only [values, List.forall₂_cons, List.forall₂_nil_left_iff, Json.toValue?_toNat,
      Json.toValue?, and_true, true_and]
    exact hcolumns
  obtain ⟨members, hvalue, -, hdecode⟩ :=
    RecordFormat.decode_value format_isRegular hvalues rfl (decode_values hread) rfl
  exact ⟨.object members, hvalue, hdecode⟩

theorem toValue?_eq_none {t : Table} (h : t.columns.looksEmbedded = true)
    (embedded : String → Option Json) : Json.toValue? embedded t.toJson = none := by
  have hcolumns := Keyed.toValue?_eq_none Column.toJson (fun c => ⟨_, rfl⟩) h embedded
  exact Json.toValue?_object_eq_none rfl (m := ("columns", t.columns.toJson Column.toJson))
    hcolumns (by simp)

theorem isPlain_toJson (t : Table) : t.toJson.IsPlain := by
  simp only [toJson, Json.IsPlain, Json.MembersArePlain, Json.isPlain_ofNat,
    Keyed.isPlain_toJson Column.isPlain_toJson, and_self]

theorem depth_toJson_le (t : Table) : t.toJson.depth ≤ 3 := by
  have hcolumns := Keyed.depth_toJson_le (fun c => (Column.depth_toJson c).le) t.columns
  simp only [toJson, Json.depth, Json.depthOfMembers, Json.ofNat]
  omega

end Table

/-! ## Schemas -/

namespace Schema

/-- The values of a schema's fields, given that of its tables. -/
def values (s : Schema) (tables : Json) : List Json := [
  .string s.name, tables, .string s.defaultCharacterSet, .string s.defaultCollation]

/-- Whether the tables of a schema, or the columns of one of them, are taken for an
embedded document. -/
def looksEmbedded (s : Schema) : Bool :=
  s.tables.looksEmbedded || s.tables.values.any fun t => t.columns.looksEmbedded

theorem format_isRegular : format.IsRegular where
  names := by decide
  commute := by simp [format, Field.commutes_of]

theorem decode_values {s : Schema} {members : List (String × Json)}
    (h : Json.readKeyed Table.decode (.object members) = .ok s.tables) :
    format.decode (.array (s.values (.object members))) = .ok s := by
  simp only [RecordFormat.decode, values, format, RecordFormat.readItems, Field.of,
    Json.readText, Json.readNullAs, h, Except.map]

/-- A schema is read back from what it is written as. -/
theorem decode_toJson (s : Schema) : decode s.toJson = .ok s := by
  have htables := Json.readKeyed_object s.tables
    (Json.readAs_map fun e _ => e.2.decode_toJson)
  exact RecordFormat.decode_object format_isRegular rfl (decode_values htables) (.refl _)

/-- A schema is read back from the value of what it is written as, which is no
snapshot. -/
theorem decode_value (embedded : String → Option Json) {s : Schema}
    (h : s.looksEmbedded = false) :
    ∃ v, Json.toValue? embedded s.toJson = some v ∧ v.member? "schemas" = none
      ∧ decode v = .ok s := by
  obtain ⟨hfirst, hcolumns⟩ := Bool.or_eq_false_iff.1 h
  rw [List.any_eq_false, Keyed.values, List.forall_mem_map] at hcolumns
  obtain ⟨tables, htables, hread⟩ := Json.toValue?_keyed s.tables
    ((Keyed.embeds_entries _ _).trans hfirst)
    fun e he => Table.decode_value embedded (Bool.eq_false_iff.2 (hcolumns e he))
  have hvalues : List.Forall₂ (fun j v => Json.toValue? embedded j = some v)
      (s.values (s.tables.toJson Table.toJson)) (s.values (.object tables)) := by
    simp only [values, List.forall₂_cons, List.forall₂_nil_left_iff, Json.toValue?, and_true,
      true_and]
    exact htables
  obtain ⟨members, hvalue, hnames, hdecode⟩ :=
    RecordFormat.decode_value format_isRegular hvalues rfl (decode_values hread) rfl
  refine ⟨.object members, hvalue, Json.member?_eq_none ?_, hdecode⟩
  rw [hnames.mem_iff]
  decide

theorem toValue?_eq_none {s : Schema} (h : s.looksEmbedded = true)
    (embedded : String → Option Json) : Json.toValue? embedded s.toJson = none := by
  have htables : Json.toValue? embedded (s.tables.toJson Table.toJson) = none := by
    by_cases hfirst : s.tables.looksEmbedded = true
    · exact Keyed.toValue?_eq_none Table.toJson (fun t => ⟨_, rfl⟩) hfirst embedded
    · rw [looksEmbedded, Bool.eq_false_iff.2 hfirst, Bool.false_or, List.any_eq_true] at h
      obtain ⟨t, ht, hcolumns⟩ := h
      obtain ⟨e, he, rfl⟩ := List.mem_map.1 ht
      exact Json.toValue?_object_eq_none
        ((Keyed.embeds_entries _ _).trans (Bool.eq_false_iff.2 hfirst))
        (m := (e.1, e.2.toJson)) (Table.toValue?_eq_none hcolumns embedded)
        (List.mem_map.2 ⟨e, he, rfl⟩)
  exact Json.toValue?_object_eq_none rfl (m := ("tables", s.tables.toJson Table.toJson))
    htables (by simp)

theorem isPlain_toJson (s : Schema) : s.toJson.IsPlain := by
  simp only [toJson, Json.IsPlain, Json.MembersArePlain,
    Keyed.isPlain_toJson Table.isPlain_toJson, and_self]

theorem depth_toJson_le (s : Schema) : s.toJson.depth ≤ 5 := by
  have htables := Keyed.depth_toJson_le Table.depth_toJson_le s.tables
  simp only [toJson, Json.depth, Json.depthOfMembers]
  omega

end Schema

/-! ## Snapshots -/

namespace Snapshot

theorem format_isRegular : format.IsRegular where
  names := by decide
  commute := List.pairwise_singleton _ _

/-- A snapshot is read back from what it is written as. -/
theorem decode_toJson (l : Snapshot) : decode l.toJson = .ok l := by
  have hschemas : Json.readList Schema.decode (.array (l.schemas.map Schema.toJson))
      = .ok l.schemas :=
    Json.readEach_map fun s _ => s.decode_toJson
  have harray : format.decode (.array [.array (l.schemas.map Schema.toJson)]) = .ok l := by
    simp only [RecordFormat.decode, format, RecordFormat.readItems, Field.of, Json.readNullAs,
      hschemas, Except.map]
  exact RecordFormat.decode_object format_isRegular rfl harray (.refl _)

theorem isPlain_toJson (l : Snapshot) : l.toJson.IsPlain := by
  rw [toJson, Json.IsPlain, Json.MembersArePlain, Json.IsPlain, Json.arePlain_iff,
    List.forall_mem_map]
  exact ⟨fun s _ => s.isPlain_toJson, trivial⟩

end Snapshot

end SchemaPlan
