import SchemaPlan.Json.Decode
import SchemaPlan.Model.Schema

set_option autoImplicit false

/-!
# Schemas as documents

The document form of columns, tables and schemas.  Every field is written, in
the order of its record; every field may be left out when read.  The name of a
column is the field `column`, and is also read from a field `name`.
-/

namespace SchemaPlan

open Json (Field RecordFormat readText readBool readUInt64)

/-- A column key as a document: the text of its code. -/
def ColumnKey.toJson (key : ColumnKey) : Json := .string key.code

/-- Read a column key from its code. -/
def ColumnKey.decode : Json.Decoder ColumnKey :=
  Json.readVariant (ColumnKey.all.map ColumnKey.code) ColumnKey.ofCode?

namespace Column

/-- The fields of a column. -/
def format : RecordFormat Column where
  name := "Column"
  start := {}
  fields := [
    { Field.of "column" .optional readText (fun v c => { c with name := v }) with
      otherName := some "name" },
    .of "default" .optional readText (fun v c => { c with default := v }),
    .of "isNullable" .optional readBool (fun v c => { c with isNullable := v }),
    .of "isUnsigned" .optional readBool (fun v c => { c with isUnsigned := v }),
    .of "dataType" .optional readText (fun v c => { c with dataType := v }),
    .of "maxLength" .optional readUInt64 (fun v c => { c with maxLength := v }),
    .of "precision" .optional readUInt64 (fun v c => { c with precision := v }),
    .of "charSet" .optional readText (fun v c => { c with charSet := v }),
    .of "collation" .optional readText (fun v c => { c with collation := v }),
    .of "type" .optional readText (fun v c => { c with columnType := v }),
    .of "columnKey" .optional ColumnKey.decode (fun v c => { c with columnKey := v }),
    .of "numericScale" .optional readUInt64 (fun v c => { c with numericScale := v }),
    .of "extra" .optional readText (fun v c => { c with extra := v })]

/-- Read a column. -/
def decode : Json.Decoder Column := format.decode

/-- A column as a document. -/
def toJson (c : Column) : Json := .object [
  ("column", .string c.name),
  ("default", .string c.default),
  ("isNullable", .bool c.isNullable),
  ("isUnsigned", .bool c.isUnsigned),
  ("dataType", .string c.dataType),
  ("maxLength", .ofNat c.maxLength.toNat),
  ("precision", .ofNat c.precision.toNat),
  ("charSet", .string c.charSet),
  ("collation", .string c.collation),
  ("type", .string c.columnType),
  ("columnKey", c.columnKey.toJson),
  ("numericScale", .ofNat c.numericScale.toNat),
  ("extra", .string c.extra)]

end Column

/-- A map as a document, with its keys in ascending order. -/
def Keyed.toJson {α : Type} (value : α → Json) (map : Keyed α) : Json :=
  .object (map.entries.map fun e => (e.1, value e.2))

namespace Table

/-- The fields of a table; null columns are no columns. -/
def format : RecordFormat Table where
  name := "Table"
  start := {}
  fields := [
    .of "name" .optional readText (fun v t => { t with name := v }),
    .of "engine" .optional readText (fun v t => { t with engine := v }),
    .of "version" .optional readUInt64 (fun v t => { t with version := v }),
    .of "rowFormat" .optional readText (fun v t => { t with rowFormat := v }),
    .of "collation" .optional readText (fun v t => { t with collation := v }),
    .of "characterSet" .optional readText (fun v t => { t with characterSet := v }),
    .of "columns" .optional (Json.readNullAs .empty (Json.readKeyed Column.decode))
      (fun v t => { t with columns := v })]

/-- Read a table. -/
def decode : Json.Decoder Table := format.decode

/-- A table as a document. -/
def toJson (t : Table) : Json := .object [
  ("name", .string t.name),
  ("engine", .string t.engine),
  ("version", .ofNat t.version.toNat),
  ("rowFormat", .string t.rowFormat),
  ("collation", .string t.collation),
  ("characterSet", .string t.characterSet),
  ("columns", t.columns.toJson Column.toJson)]

end Table

namespace Schema

/-- The fields of a schema; null tables are no tables. -/
def format : RecordFormat Schema where
  name := "Schema"
  start := {}
  fields := [
    .of "name" .optional readText (fun v s => { s with name := v }),
    .of "tables" .optional (Json.readNullAs .empty (Json.readKeyed Table.decode))
      (fun v s => { s with tables := v }),
    .of "defaultCharacterSet" .optional readText
      (fun v s => { s with defaultCharacterSet := v }),
    .of "defaultCollation" .optional readText (fun v s => { s with defaultCollation := v })]

/-- Read a schema. -/
def decode : Json.Decoder Schema := format.decode

/-- A schema as a document. -/
def toJson (s : Schema) : Json := .object [
  ("name", .string s.name),
  ("tables", s.tables.toJson Table.toJson),
  ("defaultCharacterSet", .string s.defaultCharacterSet),
  ("defaultCollation", .string s.defaultCollation)]

end Schema

end SchemaPlan
