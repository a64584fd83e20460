import SchemaPlan.Model.Validation
import SchemaPlan.Plan.Comparison
import SchemaPlan.Plan.Pairing

set_option autoImplicit false

/-!
# Planning

`target.plan current database` lists the statements that bring a database, whose
definition is `current`, in line with `target`: the defaults of the database,
then the tables on both sides by name, then renamed, dropped and created tables.

A table that is gone and a new one with the same column names are one table
renamed; in a table on both sides, a column that is gone and a new one of the
same type are one column renamed.  `diff` plans only between two valid schemas.
-/

namespace SchemaPlan

/-! ## Columns of a table on both sides -/

/-- The statements that turn the key of a column on both sides from the first
into the second.  Between a primary key and an index of its own there is none:
such a change needs a schema between the two. -/
def keyTransition (table column : String) : ColumnKey → ColumnKey → List Statement
  | .none, .multiple => [.addIndex .plain table column]
  | .none, .unique => [.addIndex .unique table column]
  | .none, .primary => [.addPrimaryKey table column]
  | .multiple, .none => [.dropIndex .plain table column]
  | .unique, .none => [.dropIndex .unique table column]
  | .primary, .none => [.dropPrimaryKey table]
  | .multiple, .unique => [.dropIndex .plain table column, .addIndex .unique table column]
  | .unique, .multiple => [.dropIndex .unique table column, .addIndex .plain table column]
  | _, _ => []

/-- Whether two definitions of a column differ in what a plan compares. -/
def Column.differs (a b : Column) : Bool :=
  a.type? != b.type? || a.charSet != b.charSet || a.collation != b.collation
    || a.maxLength != b.maxLength

namespace Table

/-- The statement that converts a table whose character set or collation
differs. -/
def conversion (target current : Table) : List Statement :=
  if target.characterSet != current.characterSet || target.collation != current.collation then
    [.convertTable target.name target.characterSet target.collation]
  else []

/-- The columns that go and those that come, paired by type. -/
def columnPairing (target current : Table) : Pairing (String × Column) (String × Column) :=
  pairUp (fun gone new => new.2.type? == gone.2.type?)
    (current.columns.without target.columns) (target.columns.without current.columns)

/-- A column that goes takes its index with it. -/
def dropColumnStatements (target current : Table) (gone : String × Column) : List Statement :=
  (Statement.dropIndexFor? current.name gone.2.name gone.2.columnKey).toList
    ++ [.dropColumn target.name gone.1]

/-- A column that comes brings its index, but not a primary key. -/
def addColumnStatements (target : Table) (new : String × Column) : List Statement :=
  .addColumn target.name new.2
    :: (Statement.addIndexFor? target.name new.2.name new.2.columnKey).toList

/-- What changes on a column of both sides: its key, then its definition. -/
def sharedColumnStatements (target : Table) (pair : Column × Column) : List Statement :=
  keyTransition target.name pair.1.name pair.2.columnKey pair.1.columnKey
    ++ (if pair.1.differs pair.2 then [.changeColumn target.name pair.1.name pair.1] else [])

/-- The statements for a table on both sides. -/
def plan (target current : Table) : List Statement :=
  let columns := target.columnPairing current
  target.conversion current
    ++ columns.pairs.map (fun pair => .changeColumn target.name pair.1.1 pair.2.2)
    ++ columns.gone.flatMap (target.dropColumnStatements current)
    ++ columns.new.flatMap target.addColumnStatements
    ++ (target.columns.common current.columns).flatMap target.sharedColumnStatements

end Table

/-! ## Tables of a schema -/

namespace Schema

/-- The statement that sets the defaults of the database, if the target names a
character set and not both defaults agree. -/
def defaultsStatement (target current : Schema) (database : String) : List Statement :=
  if target.defaultCharacterSet != ""
      && (target.defaultCharacterSet != current.defaultCharacterSet
        || target.defaultCollation != current.defaultCollation) then
    [.alterDatabase database target.defaultCharacterSet target.defaultCollation]
  else []

/-- The tables that go and those that come, paired by their column names. -/
def tablePairing (target current : Schema) : Pairing (String × Table) (String × Table) :=
  pairUp (fun gone new => new.2.hasSameColumnNames gone.2)
    (current.tables.without target.tables) (target.tables.without current.tables)

/-- The statements that bring a database in line with `target`. -/
def plan (target current : Schema) (database : String) : List Statement :=
  let tables := target.tablePairing current
  target.defaultsStatement current database
    ++ (target.tables.common current.tables).flatMap (fun pair => pair.1.plan pair.2)
    ++ tables.pairs.map (fun pair => .renameTable pair.1.1 pair.2.1)
    ++ tables.gone.map (fun gone => .dropTable gone.1)
    ++ tables.new.flatMap (fun new => new.2.creation)

/-- The plan between two valid schemas as a comparison; the fault of the target
is reported before that of the current one. -/
def diff (target current : Schema) (database : String) : Except SchemaFault Comparison :=
  match target.validate with
  | .error fault => .error fault
  | .ok () =>
    match current.validate with
    | .error fault => .error fault
    | .ok () => .ok (.ofStatements database (target.plan current database))

end Schema

end SchemaPlan
