import SchemaPlan.Json.Decode
import SchemaPlan.Plan.Comparison

set_option autoImplicit false

/-!
# Comparisons as documents

The document form of changes and comparisons.  Every field is written and must
be there when read; whether a change is destructive is read as it stands.
-/

namespace SchemaPlan

open Json (Field RecordFormat readText readBool readCount readList)

/-- A kind of change as a document. -/
def ChangeKind.toJson (kind : ChangeKind) : Json := .string kind.word

/-- Read a kind of change from its word. -/
def ChangeKind.decode : Json.Decoder ChangeKind :=
  Json.readVariant (ChangeKind.all.map ChangeKind.word) ChangeKind.ofWord?

namespace Change

/-- The fields of a change. -/
def format : RecordFormat Change where
  name := "SchemaChange"
  start := default
  fields := [
    .of "kind" .required ChangeKind.decode (fun v c => { c with kind := v }),
    .of "sql" .required readText (fun v c => { c with sql := v }),
    .of "isDestructive" .required readBool (fun v c => { c with isDestructive := v })]

/-- Read a change. -/
def decode : Json.Decoder Change := format.decode

/-- A change as a document. -/
def toJson (c : Change) : Json := .object [
  ("kind", c.kind.toJson),
  ("sql", .string c.sql),
  ("isDestructive", .bool c.isDestructive)]

end Change

namespace Comparison

/-- The fields of a comparison. -/
def format : RecordFormat Comparison where
  name := "SchemaComparison"
  start := {}
  fields := [
    .of "database" .required readText (fun v c => { c with database := v }),
    .of "databaseKey" .required readText (fun v c => { c with databaseKey := v }),
    .of "additions" .required readCount (fun v c => { c with additions := v }),
    .of "alterations" .required readCount (fun v c => { c with alterations := v }),
    .of "deletions" .required readCount (fun v c => { c with deletions := v }),
    .of "changes" .required (readList Change.decode) (fun v c => { c with changes := v })]

/-- Read a comparison. -/
def decode : Json.Decoder Comparison := format.decode

/-- A comparison as a document. -/
def toJson (c : Comparison) : Json := .object [
  ("database", .string c.database),
  ("databaseKey", .string c.databaseKey),
  ("additions", .ofNat c.additions),
  ("alterations", .ofNat c.alterations),
  ("deletions", .ofNat c.deletions),
  ("changes", .array (c.changes.map Change.toJson))]

end Comparison

end SchemaPlan
