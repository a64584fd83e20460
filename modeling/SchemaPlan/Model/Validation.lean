import SchemaPlan.Model.Schema

set_option autoImplicit false

/-!
# Validation

A plan relies on four facts about a schema: tables and columns are held under
their own names, every type is a known one, and a table has at most one column
that carries the primary key.  `Schema.validate` checks them in ascending order
of the keys and reports the first that fails.
-/

namespace SchemaPlan

/-- What is wrong with a table or a column. -/
inductive Defect
  | tableKey (key name : String)
  | columnKey (key name : String)
  | unknownType (tag : String)
  | secondPrimaryKey (first : String)
  /-- The catalog reports a column key that is none. -/
  | unknownKey (code : String)
  deriving DecidableEq, Repr

/-- A defect in words. -/
def Defect.message : Defect → String
  | tableKey key name =>
    "table is keyed as \x60" ++ key ++ "\x60 but named \x60" ++ name ++ "\x60"
  | columnKey key name =>
    "column is keyed as \x60" ++ key ++ "\x60 but named \x60" ++ name ++ "\x60"
  | unknownType tag => "unknown data type \x60" ++ tag ++ "\x60"
  | secondPrimaryKey first => "\x60" ++ first ++ "\x60 already carries the primary key"
  | unknownKey code => "unknown column key \x60" ++ code ++ "\x60"

/-- A defect and where it is; `column` is empty for a table's own. -/
structure SchemaFault where
  table : String
  column : String
  defect : Defect
  deriving DecidableEq, Repr

/-- A fault in words. -/
def SchemaFault.message (fault : SchemaFault) : String :=
  "\x60" ++ fault.table ++ "\x60.\x60" ++ fault.column ++ "\x60: " ++ fault.defect.message

namespace Table

/-- Check the columns of a table named `table`, given the key under which the
primary key was met before. -/
def validateColumns (table : String) :
    Option String → List (String × Column) → Except SchemaFault Unit
  | _, [] => .ok ()
  | primary, (key, column) :: rest =>
    if column.name ≠ key then .error ⟨table, key, .columnKey key column.name⟩
    else if column.type?.isNone then .error ⟨table, key, .unknownType column.dataType⟩
    else if column.columnKey = .primary then
      match primary with
      | some first => .error ⟨table, key, .secondPrimaryKey first⟩
      | none => validateColumns table (some key) rest
    else validateColumns table primary rest

/-- Check the columns of a table. -/
def validate (table : Table) : Except SchemaFault Unit :=
  validateColumns table.name none table.columns.entries

end Table

namespace Schema

/-- Check tables in the order given. -/
def validateTables : List (String × Table) → Except SchemaFault Unit
  | [] => .ok ()
  | (key, table) :: rest =>
    if table.name ≠ key then .error ⟨key, "", .tableKey key table.name⟩
    else
      match table.validate with
      | .error fault => .error fault
      | .ok () => validateTables rest

/-- Check a schema and report its first defect. -/
def validate (schema : Schema) : Except SchemaFault Unit :=
  validateTables schema.tables.entries

end Schema

end SchemaPlan
