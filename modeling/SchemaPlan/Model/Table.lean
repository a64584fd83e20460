import SchemaPlan.Keyed
import SchemaPlan.Model.Column

set_option autoImplicit false

/-!
# Tables
-/

namespace SchemaPlan

/-- The definition of a table. -/
structure Table where
  name : String := ""
  engine : String := ""
  version : UInt64 := 0
  rowFormat : String := ""
  collation : String := ""
  characterSet : String := ""
  columns : Keyed Column := .empty
  deriving DecidableEq, Repr, Inhabited

namespace Table

/-- Put a column under its own name. -/
def addColumn (table : Table) (column : Column) : Table :=
  { table with columns := table.columns.insert column.name column }

/-- The columns in ascending order of their own names; those of one name stay
in the order of their keys. -/
def sortedColumns (table : Table) : List Column :=
  table.columns.values.mergeSort fun a b => a.name ≤ b.name

/-- The column that carries the primary key, the first in order of the keys. -/
def primaryKey? (table : Table) : Option Column :=
  table.columns.values.find? fun c => c.columnKey == .primary

/-- Whether two tables have the same number of columns and each key of the
first is one of the second. -/
def hasSameColumnNames (a b : Table) : Bool :=
  a.columns.size == b.columns.size && a.columns.keys.all b.columns.contains

/-- A table as it is held under `key`: named, and with normalized columns. -/
def normalize (key : String) (table : Table) : Table :=
  { table with
    name := if table.name == "" then key else table.name
    columns := table.columns.mapValues Column.normalize }

end Table

end SchemaPlan
