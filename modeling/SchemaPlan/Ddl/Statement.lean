import SchemaPlan.Ddl.ChangeKind
import SchemaPlan.Ddl.Definition
import SchemaPlan.Model.Table

set_option autoImplicit false

/-!
# Statements

A plan is a list of statements, each a value that says what is done to what.
Its kind and its text follow from it.  A text is one statement, ends with a
semicolon and has no line break behind it.
-/

namespace SchemaPlan

/-- A statement that changes the structure of a database. -/
inductive Statement
  /-- Set the defaults of the database. -/
  | alterDatabase (database characterSet collation : String)
  /-- Convert a table and its columns to a character set. -/
  | convertTable (table characterSet collation : String)
  /-- Create a table with its columns and its primary key. -/
  | createTable (table : Table)
  | dropTable (table : String)
  | renameTable (old new : String)
  | addColumn (table : String) (column : Column)
  | dropColumn (table column : String)
  /-- Redefine a column, under a new name if the definition has another. -/
  | changeColumn (table old : String) (column : Column)
  | addIndex (kind : IndexKind) (table column : String)
  | dropIndex (kind : IndexKind) (table column : String)
  | addPrimaryKey (table column : String)
  | dropPrimaryKey (table : String)
  deriving DecidableEq, Repr

namespace Table

/-- The column that the definition of a table names as primary key: of several
the last by name. -/
def definedPrimaryKey? (table : Table) : Option Column :=
  table.sortedColumns.reverse.find? fun c => c.columnKey == .primary

/-- What stands between the parentheses of a table's definition: its columns by
name, then its primary key. -/
def definitions (table : Table) : List String :=
  table.sortedColumns.map Column.definition
    ++ (match table.definedPrimaryKey? with
      | some c => ["PRIMARY KEY(" ++ quoteIdentifier c.name ++ ")"]
      | none => [])

/-- The statement text that creates a table. -/
def creationText (table : Table) : String :=
  "CREATE TABLE " ++ quoteIdentifier table.name
    ++ " (\n\t" ++ String.intercalate ",\n\t" table.definitions ++ "\n)"
    ++ clause " ENGINE = " table.engine
    ++ clause " CHARACTER SET " table.characterSet
    ++ clause " COLLATE " table.collation
    ++ ";"

end Table

namespace Statement

/-- The kind of change that a statement makes. -/
def kind : Statement → ChangeKind
  | alterDatabase .. | convertTable .. => .changeCharacterSet
  | createTable .. => .createTable
  | dropTable .. => .dropTable
  | renameTable .. => .renameTable
  | addColumn .. => .addColumn
  | dropColumn .. => .dropColumn
  | changeColumn .. => .changeColumn
  | addIndex .. | addPrimaryKey .. => .addIndex
  | dropIndex .. | dropPrimaryKey .. => .dropIndex

/-- How a statement on one table begins. -/
def alterTable (table : String) : String := "ALTER TABLE " ++ quoteIdentifier table ++ " "

/-- The words that add an index of a kind. -/
def addIndexWords : IndexKind → String
  | .plain => "ADD INDEX "
  | .unique => "ADD UNIQUE INDEX "

/-- The text of a statement. -/
def sql : Statement → String
  | alterDatabase database characterSet collation =>
    "ALTER DATABASE " ++ quoteIdentifier database ++ " CHARACTER SET " ++ characterSet
      ++ " COLLATE " ++ collation ++ ";"
  | convertTable table characterSet collation =>
    alterTable table ++ "CONVERT TO CHARACTER SET " ++ characterSet ++ " COLLATE " ++ collation
      ++ ";"
  | createTable table => table.creationText
  | dropTable table => "DROP TABLE " ++ quoteIdentifier table ++ ";"
  | renameTable old new =>
    "RENAME TABLE " ++ quoteIdentifier old ++ " TO " ++ quoteIdentifier new ++ ";"
  | addColumn table column => alterTable table ++ "ADD COLUMN " ++ column.definition ++ ";"
  | dropColumn table column =>
    alterTable table ++ "DROP COLUMN " ++ quoteIdentifier column ++ ";"
  | changeColumn table old column =>
    alterTable table ++ "CHANGE " ++ quoteIdentifier old ++ " " ++ column.definition ++ ";"
  | addIndex kind table column =>
    alterTable table ++ addIndexWords kind ++ quoteIdentifier (kind.indexName table column)
      ++ " (" ++ quoteIdentifier column ++ ");"
  | dropIndex kind table column =>
    alterTable table ++ "DROP INDEX " ++ quoteIdentifier (kind.indexName table column) ++ ";"
  | addPrimaryKey table column =>
    alterTable table ++ "ADD PRIMARY KEY (" ++ quoteIdentifier column ++ ");"
  | dropPrimaryKey table => alterTable table ++ "DROP PRIMARY KEY;"

/-- The statement that gives a column its index, for a key that has one of its
own. -/
def addIndexFor? (table column : String) : ColumnKey → Option Statement
  | .unique => some (addIndex .unique table column)
  | .multiple => some (addIndex .plain table column)
  | _ => none

/-- The statement that takes a column's index away, for a key that has one of
its own. -/
def dropIndexFor? (table column : String) : ColumnKey → Option Statement
  | .unique => some (dropIndex .unique table column)
  | .multiple => some (dropIndex .plain table column)
  | _ => none

end Statement

namespace Table

/-- The statements that create a table: the table with its columns, its unique
indexes, its other indexes, each by name of the column. -/
def creation (table : Table) : List Statement :=
  let named (key : ColumnKey) :=
    (table.sortedColumns.filter fun c => c.columnKey == key).map (·.name)
  .createTable table
    :: (named .unique).map (.addIndex .unique table.name)
    ++ (named .multiple).map (.addIndex .plain table.name)

end Table

end SchemaPlan
