import Mathlib.Data.List.Sort
import SchemaPlan.Proofs.Replay.Tables
set_option autoImplicit false

/-!
# Replaying on definitions

What a server does to the definitions of a schema, statement by statement.  A
column keeps its key when it gets a new definition, and only the statements on
indexes change a key; a new column and the columns of a new table come without
an index, the primary key of a new table excepted.
-/

namespace SchemaPlan

open Replay

/-! ## Columns and tables -/

/-- A column without an index; a primary key stays. -/
def Column.bare (c : Column) : Column :=
  match c.columnKey with
  | .unique | .multiple => { c with columnKey := .none }
  | .none | .primary => c

/-- A table as it is created: without its indexes, but with its primary key. -/
def Table.bare (t : Table) : Table :=
  { t with columns := t.columns.mapValues fun _ c => c.bare }

/-- A replay of columns that keeps their definitions. -/
def definedColumns : ColumnModel Column where
  ofColumn c := c
  add c := { c with columnKey := .none }
  change c old := { c with columnKey := old.columnKey }
  setKey key c := { c with columnKey := key }
  isPrimary c := c.columnKey == .primary
  isPrimary_ofColumn := .inl fun _ => rfl
  isPrimary_add _ := rfl
  isPrimary_change _ _ := rfl
  isPrimary_setKey h := beq_iff_eq.1 h

/-- The columns of a table, next to its character set and collation. -/
def Table.columnsPart : Part Table (Keyed Column) where
  get t := t.columns
  put columns t := { t with columns := columns }
  rest
    | .convertTable _ characterSet collation, t =>
      { t with characterSet := characterSet, collation := collation }
    | _, t => t
  get_put _ _ := rfl
  put_get _ := rfl
  put_put _ _ _ := rfl
  rest_put s _ _ := by cases s <;> rfl

/-- What a statement does to the table that it alters. -/
def Table.alter : Statement → Table → Option Table :=
  Table.columnsPart.lift definedColumns.step

/-- A replay of tables that keeps their definitions. -/
def definedTables : TableModel Table where
  ofTable t := t
  create t := t.bare
  rename name t := { t with name := name }
  alter := Table.alter
  requires s t := definedColumns.guard s t.columns
  inv t := definedColumns.OnePrimary t.columns
  inv_ofTable h _ _ _ _ hc hd hcp hdp :=
    h.primary_unique hc hd (beq_iff_eq.1 hcp) (beq_iff_eq.1 hdp)
  inv_rename h := h

/-! ## Schemas -/

/-- The tables of a schema, next to its defaults. -/
def Schema.tablesPart : Part Schema (Keyed Table) where
  get schema := schema.tables
  put tables schema := { schema with tables := tables }
  rest
    | .alterDatabase _ characterSet collation, schema =>
      { schema with defaultCharacterSet := characterSet, defaultCollation := collation }
    | _, schema => schema
  get_put _ _ := rfl
  put_get _ := rfl
  put_put _ _ _ := rfl
  rest_put s _ _ := by cases s <;> rfl

namespace Schema

/-- What a statement does to a schema; `none` if a name it refers to is not
there, or one it brings in is there already. -/
def step : Statement → Schema → Option Schema := tablesPart.lift definedTables.step

/-- The schema after some statements. -/
def replay (schema : Schema) (statements : List Statement) : Option Schema :=
  run step statements schema

end Schema

end SchemaPlan
