import SchemaPlan.Fault
import SchemaPlan.Json.Parser
import SchemaPlan.Json.Printer
import SchemaPlan.Model.Document
import SchemaPlan.Snapshot.Basic

set_option autoImplicit false

/-!
# Snapshots as text

A snapshot is kept as a document with one field, `schemas`; a single schema may
stand in a document of its own.  Whatever is read is normalized.

There are two ways of reading.  `Snapshot.ofText` and `Schema.ofText` read a
document as it is written, so that a field given twice is an error and what is
skipped may hold anything.  `Schema.select` first makes a value of the document,
which must be readable in every part and not too deep, and then takes the schema
that is asked for.
-/

namespace SchemaPlan

open Json (Field RecordFormat)

/-- Read the document of a text as it is written. -/
def readDocument {α : Type} (decode : Json.Decoder α) (text : String) : Except Fault α :=
  match Json.parse? text with
  | none => .error .malformedText
  | some j =>
    match decode j with
    | .error _ => .error .malformedText
    | .ok value => .ok value

/-- Read a value that was made of a document before. -/
def readValue {α : Type} (decode : Json.Decoder α) (j : Json) : Except Fault α :=
  match decode j with
  | .error e => .error (.decoding e)
  | .ok value => .ok value

namespace Snapshot

/-- The one field of a snapshot; null schemas are no schemas. -/
def format : RecordFormat Snapshot where
  name := "SchemaList"
  start := {}
  fields := [
    .of "schemas" .required (Json.readNullAs [] (Json.readList Schema.decode))
      (fun v s => { s with schemas := v })]

/-- Read a snapshot. -/
def decode : Json.Decoder Snapshot := format.decode

/-- A snapshot as a document. -/
def toJson (snapshot : Snapshot) : Json :=
  .object [("schemas", .array (snapshot.schemas.map Schema.toJson))]

/-- A snapshot as text. -/
def text (snapshot : Snapshot) : String := snapshot.toJson.pretty

/-- The normalized snapshot of a text. -/
def ofText (text : String) : Except Fault Snapshot :=
  match readDocument decode text with
  | .error e => .error e
  | .ok snapshot => .ok snapshot.normalize

end Snapshot

namespace Schema

/-- A schema as text. -/
def text (schema : Schema) : String := schema.toJson.pretty

/-- The normalized schema of a text. -/
def ofText (text : String) : Except Fault Schema :=
  match readDocument decode text with
  | .error e => .error e
  | .ok schema => .ok schema.normalize

/-- The schema that is meant among those of a file: the first of a name, or
without a name the only one. -/
def pick (path : String) (name : Option String) (schemas : List Schema) : Except Fault Schema :=
  match name with
  | some name =>
    match schemas.find? fun s => s.name == name with
    | some schema => .ok schema
    | none => .error (.schemaNotFound name)
  | none =>
    match schemas with
    | [schema] => .ok schema
    | _ => .error (.config (.ambiguous path schemas.length))

/-- The normalized schema of a text found at `path`, which holds a single schema
or a snapshot from which one is picked. -/
def select (path : String) (name : Option String) (text : String) : Except Fault Schema :=
  match Json.ofText? text with
  | none => .error .malformedText
  | some value =>
    match value.member? "schemas" with
    | none =>
      match SchemaPlan.readValue decode value with
      | .error e => .error e
      | .ok schema => .ok schema.normalize
    | some _ =>
      match SchemaPlan.readValue Snapshot.decode value with
      | .error e => .error e
      | .ok snapshot =>
        match pick path name snapshot.schemas with
        | .error e => .error e
        | .ok schema => .ok schema.normalize

end Schema

end SchemaPlan
