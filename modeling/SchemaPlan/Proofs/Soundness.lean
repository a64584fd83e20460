import Mathlib.Data.List.Sort
import SchemaPlan.Proofs.Replay.Tables
set_option autoImplicit false

/-!
# Soundness of plans on names

A plan names tables and columns.  Here a database is seen as nothing but its
names: `Applicable` says when a statement finds the names that it refers to and
does not find those that it brings in.  Between two valid schemas every
statement of the plan is applicable when it is reached, the plan leads to
exactly the names of the target, and each name that goes or comes does so once
(`diff_sound`).
-/

namespace SchemaPlan

open Replay

/-! ## Names -/

/-- The names of a database: its tables, each with its columns. -/
abbrev Names := Keyed (Keyed Unit)

/-- The names of a schema. -/
def Schema.names (schema : Schema) : Names := schema.tables.mapValues fun _ t => t.columns.names

namespace Names

/-- There is a table. -/
def HasTable (names : Names) (table : String) : Prop := names.contains table = true

/-- There is a table with a column. -/
def HasColumn (names : Names) (table column : String) : Prop :=
  ∃ columns, names.get? table = some columns ∧ columns.contains column = true

end Names

/-- A replay of columns that keeps their names only. -/
def nameColumns : ColumnModel Unit where
  ofColumn _ := ()
  add _ := ()
  change _ _ := ()
  setKey _ _ := ()
  isPrimary _ := false
  isPrimary_ofColumn := .inr fun _ => rfl
  isPrimary_add _ := rfl
  isPrimary_change _ _ := rfl
  isPrimary_setKey h := Bool.noConfusion h

/-- A replay of tables that keeps their names and those of their columns. -/
def nameTables : TableModel (Keyed Unit) where
  ofTable t := t.columns.names
  create t := t.columns.names
  rename _ columns := columns
  alter := nameColumns.step
  requires _ _ := True
  inv _ := True
  inv_ofTable _ := trivial
  inv_rename _ := trivial

namespace Names

/-- What a statement does to the names. -/
def step : Statement → Names → Option Names := nameTables.step

/-- The names after some statements. -/
def replay (names : Names) (statements : List Statement) : Option Names :=
  run step statements names

/-- A statement finds the names that it refers to, and not those that it brings
in. -/
def Applicable (names : Names) : Statement → Prop
  | .alterDatabase .. => True
  | .convertTable table .. => names.HasTable table
  | .createTable t => ¬ names.HasTable t.name
  | .dropTable table => names.HasTable table
  | .renameTable old new => names.HasTable old ∧ ¬ names.HasTable new
  | .addColumn table c => names.HasTable table ∧ ¬ names.HasColumn table c.name
  | .dropColumn table column => names.HasColumn table column
  | .changeColumn table old c =>
    names.HasColumn table old ∧ (c.name ≠ old → ¬ names.HasColumn table c.name)
  | .addIndex _ table column => names.HasColumn table column
  | .dropIndex _ table column => names.HasColumn table column
  | .addPrimaryKey table column => names.HasColumn table column
  | .dropPrimaryKey table => names.HasTable table

theorem hasTable_iff {names : Names} {table : String} :
    names.HasTable table ↔ ∃ columns, names.get? table = some columns := by
  rw [HasTable, ← Keyed.isSome_get?, Option.isSome_iff_exists]

theorem isSome_step_of_alters {names : Names} {s : Statement} {table : String}
    (h : s.alters? = some table) : (step s names).isSome = true ↔
      ∃ columns, names.get? table = some columns ∧
        (nameColumns.step s columns).isSome = true := by
  rw [step, TableModel.step_of_alters h]
  cases names.get? table with
  | none => simp
  | some columns => simp [nameTables]

theorem isSome_rekey_iff {columns : Keyed Unit} {column : String} {key : ColumnKey} :
    (nameColumns.rekey column key columns).isSome = true ↔ columns.contains column = true := by
  rw [ColumnModel.rekey, Option.isSome_map, Keyed.isSome_get?]

/-- A statement can be replayed exactly if it is applicable. -/
theorem isSome_step_iff {names : Names} {s : Statement} :
    (step s names).isSome = true ↔ names.Applicable s := by
  cases s with
  | alterDatabase => simp [step, TableModel.step, Applicable]
  | createTable t => simp [step, TableModel.step, Applicable, HasTable]
  | dropTable table => simp [step, TableModel.step, Applicable, HasTable]
  | renameTable old new =>
    rw [Applicable, HasTable, HasTable, ← Keyed.isSome_get?, step, TableModel.step]
    cases names.get? old <;> simp
  | convertTable table =>
    rw [isSome_step_of_alters rfl, Applicable, hasTable_iff]
    simp [ColumnModel.step]
  | dropPrimaryKey table =>
    rw [isSome_step_of_alters rfl, Applicable, hasTable_iff]
    simp [ColumnModel.step]
  | addColumn table c =>
    rw [isSome_step_of_alters rfl, Applicable, hasTable_iff, HasColumn]
    cases names.get? table <;> simp [ColumnModel.step]
  | dropColumn table column =>
    rw [isSome_step_of_alters rfl, Applicable, HasColumn]
    simp [ColumnModel.step]
  | changeColumn table old c =>
    rw [isSome_step_of_alters rfl, Applicable, HasColumn, HasColumn]
    cases names.get? table with
    | none => simp
    | some columns =>
      simp only [Option.some.injEq, exists_eq_left', ColumnModel.step, ← Keyed.isSome_get?]
      cases columns.get? old <;> simp
  | addIndex kind table column =>
    rw [isSome_step_of_alters rfl, Applicable, HasColumn]
    simp only [ColumnModel.step, isSome_rekey_iff]
  | dropIndex kind table column =>
    rw [isSome_step_of_alters rfl, Applicable, HasColumn]
    simp only [ColumnModel.step, isSome_rekey_iff]
  | addPrimaryKey table column =>
    rw [isSome_step_of_alters rfl, Applicable, HasColumn]
    simp only [ColumnModel.step, isSome_rekey_iff]

end Names

/-! ## Where a plan leads -/

theorem get?_columnNames {t : Table} {key : String} {c : Column}
    (h : t.columns.get? key = some c) : t.columns.names.get? key = some () := by
  rw [Keyed.get?_names, h]
  rfl

/-- Of a table on both sides the names of the target stay. -/
theorem nameColumns_fits (target current : Table) :
    nameColumns.Fits target current target.columns.names where
  renamed h := get?_columnNames (lookups_of_mem_pairs h).2.1
  added h := get?_columnNames (lookups_of_mem_new h).1
  shared h _ := get?_columnNames h
  absent h := by rw [Keyed.get?_names, Keyed.get?_eq_none_iff.2 h]; rfl

/-- Names ask for nothing before a statement. -/
theorem guarded_nameColumns (statements : List Statement) (columns : Keyed Unit) :
    Guarded nameColumns.step nameColumns.guard statements columns := by
  refine guarded_of_forall (fun s _ _ => ?_) _
  cases s with
  | addPrimaryKey => exact fun _ _ _ => rfl
  | _ => trivial

/-- The plan of a table leads to the names of its target. -/
theorem run_nameColumns_plan {target current : Table} (htarget : target.WellFormed)
    (hcurrent : current.WellFormed) :
    run nameColumns.step (target.plan current) current.columns.names
      = some target.columns.names :=
  (ColumnModel.run_plan htarget hcurrent (nameColumns_fits target current)
    (guarded_nameColumns _ _)).1

/-- Indexes leave the names of a new table as they are. -/
theorem run_nameColumns_indexes {table : Table} (h : table.WellFormed) :
    run nameColumns.step table.indexes table.columns.names = some table.columns.names :=
  (ColumnModel.run_indexes (m := nameColumns) (fun _ => ()) h
    (ColumnModel.onePrimary_of_none fun _ _ _ => rfl)).1

namespace Replay.ColumnModel

variable {κ : Type} (m : ColumnModel κ)

theorem names_rekey (column : String) (key : ColumnKey) (columns : Keyed κ) :
    (m.rekey column key columns).map Keyed.names
      = nameColumns.rekey column key columns.names := by
  rw [rekey, rekey, Keyed.get?_names, Option.map_map, Option.map_map]
  cases columns.get? column with
  | none => rfl
  | some v => exact congrArg some (Keyed.names_insert _ _ _)

/-- What a statement does to the names of columns does not depend on what a replay
keeps of them. -/
theorem names_step (s : Statement) (columns : Keyed κ) :
    (m.step s columns).map Keyed.names = nameColumns.step s columns.names := by
  cases s with
  | addColumn table c =>
    rw [step, step, Keyed.contains_names_eq]
    split
    · rfl
    · exact congrArg some (Keyed.names_insert _ _ _)
  | dropColumn table column =>
    rw [step, step, Keyed.contains_names_eq]
    split
    · exact congrArg some (Keyed.names_erase _ _)
    · rfl
  | changeColumn table old c =>
    rw [step, step, Keyed.contains_names_eq, Keyed.get?_names]
    cases columns.get? old with
    | none => rfl
    | some v =>
      rw [Option.map_some, Option.bind_some, Option.bind_some]
      split
      · rfl
      · rw [Option.map_some, Keyed.names_insert, Keyed.names_erase]
  | addIndex kind table column => exact m.names_rekey _ _ _
  | dropIndex kind table column => exact m.names_rekey _ _ _
  | addPrimaryKey table column => exact m.names_rekey _ _ _
  | dropPrimaryKey table =>
    refine congrArg some ?_
    rw [Keyed.names_mapValues]
    exact (Keyed.mapValues_id columns.names).symm
  | _ => rfl

theorem names_run (statements : List Statement) (columns : Keyed κ) :
    (run m.step statements columns).map Keyed.names
      = run nameColumns.step statements columns.names := by
  induction statements generalizing columns with
  | nil => rfl
  | cons s rest ih =>
    rw [run, run, ← names_step]
    cases m.step s columns with
    | none => rfl
    | some next => exact ih next

/-- The plan of a table can be run, whatever a replay keeps of its columns. -/
theorem exists_run_plan {target current : Table} (htarget : target.WellFormed)
    (hcurrent : current.WellFormed) :
    ∃ last, run m.step (target.plan current) (m.view current) = some last ∧
      last.names = target.columns.names := by
  refine Option.map_eq_some_iff.1 ((m.names_run _ _).trans ?_)
  rw [view, Keyed.names_mapValues]
  exact run_nameColumns_plan htarget hcurrent

/-- The indexes of a new table can be added, whatever a replay keeps of its columns. -/
theorem exists_run_indexes {table : Table} (h : table.WellFormed) (start : Column → κ) :
    ∃ last, run m.step table.indexes (table.columns.mapValues fun _ c => start c) = some last ∧
      last.names = table.columns.names := by
  refine Option.map_eq_some_iff.1 ((m.names_run _ _).trans ?_)
  rw [Keyed.names_mapValues]
  exact run_nameColumns_indexes h

end Replay.ColumnModel

theorem get?_schemaNames {schema : Schema} {key : String} {t : Table}
    (h : schema.tables.get? key = some t) : schema.names.get? key = some t.columns.names := by
  rw [Schema.names, Keyed.get?_mapValues, h]
  rfl

theorem names_eq_of_keys_eq {a b : Keyed Column} (h : a.keys = b.keys) : a.names = b.names := by
  refine Keyed.ext_get? fun key => ?_
  have hkey := Keyed.keys_eq_iff.1 h key
  rw [Keyed.get?_names, Keyed.get?_names]
  cases ha : a.get? key with
  | none =>
    rw [Keyed.get?_eq_none_iff, hkey, ← Keyed.get?_eq_none_iff] at ha
    rw [ha]
  | some c =>
    obtain ⟨d, hd⟩ := Keyed.mem_keys_iff.1 (hkey.1 (Keyed.mem_keys_of_get? ha))
    rw [hd]
    rfl

theorem nameTables_fits {target current : Schema} (htarget : target.WellFormed)
    (hcurrent : current.WellFormed) : nameTables.Fits target current target.names where
  shared ht hu :=
    ⟨_, get?_schemaNames ht, fun _ =>
      ⟨run_nameColumns_plan (htarget.table ht) (hcurrent.table hu), trivial⟩⟩
  renamed {gone new} h := by
    have hkeys := Schema.keys_eq_of_mem_tablePairing h
    rw [get?_schemaNames (lookups_of_mem_pairs h).2.1, names_eq_of_keys_eq hkeys]
    rfl
  created h := by
    have hnew := (lookups_of_mem_new h).1
    exact ⟨_, get?_schemaNames hnew, trivial, run_nameColumns_indexes (htarget.table hnew),
      trivial⟩
  absent h := by rw [Schema.names, Keyed.get?_mapValues, Keyed.get?_eq_none_iff.2 h]; rfl

/-- The plan of a schema leads to the names of its target. -/
theorem replay_plan {target current : Schema} (htarget : target.WellFormed)
    (hcurrent : current.WellFormed) (database : String) :
    current.names.replay (target.plan current database) = some target.names :=
  (TableModel.run_plan htarget hcurrent (nameTables_fits htarget hcurrent) database
    (guarded_of_forall (fun _ _ _ _ _ _ _ => trivial) _)).1

/-! ## Soundness -/

namespace Names

theorem hasTable_names {schema : Schema} {table : String} :
    schema.names.HasTable table ↔ table ∈ schema.tables.keys := by
  rw [HasTable, Keyed.contains_eq_true_iff, Schema.names, Keyed.keys_mapValues]

theorem hasColumn_iff_of_get? {names : Names} {table column : String} {columns : Keyed Unit}
    (h : names.get? table = some columns) :
    names.HasColumn table column ↔ columns.contains column = true := by
  constructor
  · rintro ⟨columns', hget, hcolumn⟩
    rwa [Option.some.inj (h.symm.trans hget)]
  · intro hcolumn
    exact ⟨columns, h, hcolumn⟩

theorem hasColumn_names {schema : Schema} {table column : String} :
    schema.names.HasColumn table column ↔
      ∃ t, schema.tables.get? table = some t ∧ column ∈ t.columns.keys := by
  constructor
  · rintro ⟨columns, hget, hcolumn⟩
    obtain ⟨t, ht, rfl⟩ := Keyed.get?_mapValues_eq_some_iff.1 hget
    exact ⟨t, ht, Keyed.contains_names.1 hcolumn⟩
  · rintro ⟨t, ht, hcolumn⟩
    exact ⟨t.columns.names, get?_schemaNames ht, Keyed.contains_names.2 hcolumn⟩

end Names

/-- Statements turn the names of one schema into those of another: each is
applicable when it is reached, the last leaves the names of the target, and each
name of a table, or of a column of a table on both sides, that only one side has
goes or comes exactly once. -/
structure Sound (target current : Schema) (statements : List Statement) : Prop where
  applicable : ∀ {before after : List Statement} {s : Statement},
    statements = before ++ s :: after →
      ∃ reached, current.names.replay before = some reached ∧ reached.Applicable s
  leads : current.names.replay statements = some target.names
  removed : ListsOnce (statements.filterMap Statement.removedTable?)
    fun table => current.names.HasTable table ∧ ¬ target.names.HasTable table
  introduced : ListsOnce (statements.filterMap Statement.introducedTable?)
    fun table => target.names.HasTable table ∧ ¬ current.names.HasTable table
  removedColumns : ListsOnce (statements.filterMap Statement.removedColumn?)
    fun p => target.names.HasTable p.1 ∧ current.names.HasColumn p.1 p.2 ∧
      ¬ target.names.HasColumn p.1 p.2
  introducedColumns : ListsOnce (statements.filterMap Statement.introducedColumn?)
    fun p => current.names.HasTable p.1 ∧ target.names.HasColumn p.1 p.2 ∧
      ¬ current.names.HasColumn p.1 p.2

/-- A run that comes to its end can do each of its statements. -/
theorem Names.applicable_of_replay {names last : Names} {before after : List Statement}
    {s : Statement} (h : names.replay (before ++ s :: after) = some last) :
    ∃ reached, names.replay before = some reached ∧ reached.Applicable s := by
  rw [replay, run_append] at h
  obtain ⟨reached, hreached, hrest⟩ := Option.bind_eq_some_iff.1 h
  obtain ⟨next, hnext, -⟩ := Option.bind_eq_some_iff.1 hrest
  exact ⟨reached, hreached, isSome_step_iff.1 (Option.isSome_iff_exists.2 ⟨next, hnext⟩)⟩

/-- Columns that only one of two shared tables has, said of the names. -/
theorem exists_shared_iff {a b : Schema} {table column : String} :
    (∃ t u, a.tables.get? table = some t ∧ b.tables.get? table = some u ∧
        column ∈ u.columns.keys ∧ column ∉ t.columns.keys) ↔
      a.names.HasTable table ∧ b.names.HasColumn table column ∧
        ¬ a.names.HasColumn table column := by
  rw [Names.hasTable_names, Names.hasColumn_names, Names.hasColumn_names, Keyed.mem_keys_iff]
  constructor
  · rintro ⟨t, u, ht, hu, hin, hout⟩
    refine ⟨⟨t, ht⟩, ⟨u, hu, hin⟩, ?_⟩
    rintro ⟨t', ht', hin'⟩
    obtain rfl := Option.some.inj (ht.symm.trans ht')
    exact hout hin'
  · rintro ⟨⟨t, ht⟩, ⟨u, hu, hin⟩, hout⟩
    exact ⟨t, u, ht, hu, hin, fun h => hout ⟨t, ht, h⟩⟩

theorem sound_plan {target current : Schema} (htarget : target.WellFormed)
    (hcurrent : current.WellFormed) (database : String) :
    Sound target current (target.plan current database) where
  applicable h := by
    have hrun := replay_plan htarget hcurrent database
    rw [h] at hrun
    exact Names.applicable_of_replay hrun
  leads := replay_plan htarget hcurrent database
  removed := by
    rw [Schema.removedTable?_plan htarget hcurrent]
    simp only [Names.hasTable_names]
    exact listsOnce_gone
  introduced := by
    rw [Schema.introducedTable?_plan htarget hcurrent]
    simp only [Names.hasTable_names]
    exact listsOnce_new
  removedColumns :=
    (Schema.listsOnce_removedColumn? htarget database).congr fun _ => exists_shared_iff
  introducedColumns := by
    refine (Schema.listsOnce_introducedColumn? htarget database).congr fun p => ?_
    rw [← exists_shared_iff]
    constructor
    · rintro ⟨t, u, ht, hu, hin, hout⟩
      exact ⟨u, t, hu, ht, hin, hout⟩
    · rintro ⟨u, t, hu, ht, hin, hout⟩
      exact ⟨t, u, ht, hu, hin, hout⟩

/-- Between two valid schemas there is a comparison: it lists the plan, and the
plan is sound. -/
theorem diff_sound {target current : Schema} (htarget : target.validate = .ok ())
    (hcurrent : current.validate = .ok ()) (database : String) :
    target.diff current database
        = .ok (.ofStatements database (target.plan current database)) ∧
      Sound target current (target.plan current database) := by
  have htarget' := (Schema.validate_eq_ok_iff target).1 htarget
  have hcurrent' := (Schema.validate_eq_ok_iff current).1 hcurrent
  exact ⟨Schema.diff_of_wellFormed htarget' hcurrent' database,
    sound_plan htarget' hcurrent' database⟩

/-- A guest book: a table of places and one of visits. -/
def guestBook : Schema where
  tables := .ofList [
    ("place", { name := "place", columns := .ofList [
      ("id", { name := "id", dataType := "int", columnKey := .primary }),
      ("zip", { name := "zip", dataType := "varchar", columnKey := .unique })] }),
    ("visit", { name := "visit", columns := .ofList [
      ("day", { name := "day", dataType := "date" })] })]

/-- The guest book with a renamed column, a renamed table and a new table. -/
def nextGuestBook : Schema where
  tables := .ofList [
    ("note", { name := "note", columns := .ofList [
      ("text", { name := "text", dataType := "text" })] }),
    ("place", { name := "place", columns := .ofList [
      ("code", { name := "code", dataType := "varchar" }),
      ("id", { name := "id", dataType := "int", columnKey := .primary })] }),
    ("stay", { name := "stay", columns := .ofList [
      ("day", { name := "day", dataType := "date" })] })]

theorem diff_sound_guestBook :
    (nextGuestBook.validate = .ok () ∧ guestBook.validate = .ok ()) ∧
      nextGuestBook.diff guestBook "guests"
        = .ok (.ofStatements "guests" (nextGuestBook.plan guestBook "guests")) ∧
      Sound nextGuestBook guestBook (nextGuestBook.plan guestBook "guests") :=
  ⟨by decide +kernel, diff_sound (by decide +kernel) (by decide +kernel) "guests"⟩

end SchemaPlan
