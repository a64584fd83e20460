import SchemaPlan.Catalog.Rows
import SchemaPlan.Model.Validation
import SchemaPlan.Text.Replace

set_option autoImplicit false

/-!
# Reading a schema out of the catalog

The rows of tables make the tables, and each row of a column goes to its table.
Columns of something that is no table, such as a view, are passed over.
-/

namespace SchemaPlan

namespace TableRow

/-- The table of a row, still without columns. -/
def toTable (row : TableRow) : Table where
  name := row.tableName
  engine := row.engine
  version := row.version
  rowFormat := row.rowFormat
  collation := row.tableCollation
  characterSet := row.characterSet

end TableRow

namespace ColumnRow

/-- Whether the catalog says that a column takes nulls. -/
def takesNull (row : ColumnRow) : Bool :=
  row.isNullable.toList.map Char.toLower == ['y', 'e', 's']

/-- Whether the text of the type says that a number has no sign. -/
def isUnsigned (row : ColumnRow) : Bool :=
  Text.contains " unsigned".toList (Text.lowercase row.columnType).toList

/-- The column of a row, whose key must be a known one. -/
def toColumn (row : ColumnRow) : Except SchemaFault Column :=
  match ColumnKey.ofCode? row.columnKey with
  | none => .error ⟨row.tableName, row.columnName, .unknownKey row.columnKey⟩
  | some key =>
    .ok (Column.cleanDefault {
      name := row.columnName
      default := row.columnDefault
      isNullable := row.takesNull
      isUnsigned := row.isUnsigned
      dataType := row.dataType
      maxLength := row.maxLength
      precision := row.numericPrecision
      charSet := row.characterSet
      collation := row.collation
      columnType := row.columnType
      columnKey := key
      numericScale := row.numericScale
      extra := row.extra })

end ColumnRow

namespace CatalogEntry

/-- The tables of rows; of two with one name the later stays. -/
def tablesOf (rows : List TableRow) : Keyed Table :=
  .ofList (rows.map fun row => (row.tableName, row.toTable))

/-- Put the columns of rows into their tables, in order. -/
def addColumns : Keyed Table → List ColumnRow → Except SchemaFault (Keyed Table)
  | tables, [] => .ok tables
  | tables, row :: rest =>
    match tables.get? row.tableName with
    | none => addColumns tables rest
    | some table =>
      match row.toColumn with
      | .error fault => .error fault
      | .ok column => addColumns (tables.insert row.tableName (table.addColumn column)) rest

/-- The tables of a database. -/
def toTables (entry : CatalogEntry) : Except SchemaFault (Keyed Table) :=
  addColumns (tablesOf entry.tables) entry.columns

/-- The schema of the database `name`. -/
def toSchema (name : String) (entry : CatalogEntry) : Except SchemaFault Schema :=
  match entry.toTables with
  | .error fault => .error fault
  | .ok tables => .ok {
      name := name
      tables := tables
      defaultCharacterSet := entry.characterSet
      defaultCollation := entry.collation }

end CatalogEntry

end SchemaPlan
