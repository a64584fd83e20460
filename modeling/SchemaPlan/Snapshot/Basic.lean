import SchemaPlan.Model.Schema

set_option autoImplicit false

/-!
# Snapshots

A snapshot is the authority on what databases should look like: a list of
schemas, each found by its name.
-/

namespace SchemaPlan

/-- A list of schemas. -/
structure Snapshot where
  schemas : List Schema := []
  deriving DecidableEq, Repr, Inhabited

namespace Snapshot

/-- The first schema with a name. -/
def find? (snapshot : Snapshot) (name : String) : Option Schema :=
  snapshot.schemas.find? fun s => s.name == name

/-- Replace the first schema of the same name, or append. -/
def replaceOrAppend (schema : Schema) : List Schema → List Schema
  | [] => [schema]
  | s :: rest =>
    if s.name == schema.name then schema :: rest else s :: replaceOrAppend schema rest

/-- Store a schema under its name. -/
def upsert (snapshot : Snapshot) (schema : Schema) : Snapshot :=
  ⟨replaceOrAppend schema snapshot.schemas⟩

/-- Change the first schema with a name. -/
def modify (snapshot : Snapshot) (name : String) (change : Schema → Schema) : Snapshot :=
  ⟨go snapshot.schemas⟩
where
  /-- Change the first schema with the name in a list. -/
  go : List Schema → List Schema
    | [] => []
    | s :: rest => if s.name == name then change s :: rest else s :: go rest

/-- Normalize each schema. -/
def normalize (snapshot : Snapshot) : Snapshot := ⟨snapshot.schemas.map Schema.normalize⟩

end Snapshot

end SchemaPlan
