set_option autoImplicit false

/-!
# Catalog rows

What a server says about a database, row by row, in the order it says it.
-/

namespace SchemaPlan

/-- What the catalog says about a table. -/
structure TableRow where
  tableName : String := ""
  engine : String := ""
  version : UInt64 := 0
  rowFormat : String := ""
  tableCollation : String := ""
  characterSet : String := ""
  deriving DecidableEq, Repr, Inhabited

/-- What the catalog says about a column, of a table or of a view. -/
structure ColumnRow where
  tableName : String := ""
  columnName : String := ""
  columnDefault : String := ""
  isNullable : String := ""
  dataType : String := ""
  maxLength : UInt64 := 0
  numericPrecision : UInt64 := 0
  characterSet : String := ""
  columnType : String := ""
  columnKey : String := ""
  extra : String := ""
  numericScale : UInt64 := 0
  collation : String := ""
  deriving DecidableEq, Repr, Inhabited

/-- What the catalog says about a database. -/
structure CatalogEntry where
  characterSet : String := ""
  collation : String := ""
  tables : List TableRow := []
  columns : List ColumnRow := []
  deriving DecidableEq, Repr, Inhabited

end SchemaPlan
