import SchemaPlan.Model.Table

set_option autoImplicit false

/-!
# Schemas

A schema is the definition of one database: its tables and its defaults.
-/

namespace SchemaPlan

/-- The definition of a database. -/
structure Schema where
  name : String := ""
  tables : Keyed Table := .empty
  defaultCharacterSet : String := ""
  defaultCollation : String := ""
  deriving DecidableEq, Repr, Inhabited

namespace Schema

/-- Put a table under its own name. -/
def addTable (schema : Schema) (table : Table) : Schema :=
  { schema with tables := schema.tables.insert table.name table }

/-- Name the tables and columns that have no name after their keys, and drop
the defaults that say nothing. -/
def normalize (schema : Schema) : Schema :=
  { schema with tables := schema.tables.mapValues Table.normalize }

end Schema

end SchemaPlan
