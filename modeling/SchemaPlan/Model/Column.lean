import SchemaPlan.Model.ColumnKey
import SchemaPlan.Model.DataType

set_option autoImplicit false

/-!
# Columns
-/

namespace SchemaPlan

/-- The definition of a column. -/
structure Column where
  name : String := ""
  /-- The default value as the catalog spells it. -/
  default : String := ""
  isNullable : Bool := false
  isUnsigned : Bool := false
  /-- The tag of the type, in the spelling it came with. -/
  dataType : String := ""
  maxLength : UInt64 := 0
  precision : UInt64 := 0
  charSet : String := ""
  collation : String := ""
  /-- The catalog's own text of the type. -/
  columnType : String := ""
  columnKey : ColumnKey := .none
  numericScale : UInt64 := 0
  /-- Further attributes, such as an automatic increment. -/
  extra : String := ""
  deriving DecidableEq, Repr, Inhabited

namespace Column

/-- The type that the tag names, if it is a known one. -/
def type? (column : Column) : Option DataType := DataType.ofTag? column.dataType

/-- Whether the default is one of the two spellings of "no default": an empty
quoted text, or `NULL` on a column that takes no null. -/
def hasIdleDefault (column : Column) : Bool :=
  column.default == "''" || (column.default == "NULL" && !column.isNullable)

/-- Drop a default that says nothing. -/
def cleanDefault (column : Column) : Column :=
  if column.hasIdleDefault then { column with default := "" } else column

/-- A column as it is held under `key`: named, and with a clean default. -/
def normalize (key : String) (column : Column) : Column :=
  { column with name := if column.name == "" then key else column.name }.cleanDefault

end Column

end SchemaPlan
