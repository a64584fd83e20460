import SchemaPlan.Proofs.Importing
import SchemaPlan.Proofs.Validation
set_option autoImplicit false

/-!
# What is made of catalog rows

The rows of tables and the rows of columns come in two lists that nothing ties together.
A row of a column goes to its table if the catalog lists that table, and only then is its
key looked at; of two rows for one thing the later stays.  So whether a database can be
read is decided by the first row of a listed table whose key is unknown, what it is read
as by the last rows, and what belongs to no listed table decides nothing
(`analysis_of_rows`).
-/

namespace SchemaPlan

/-! ## Rows -/

namespace ColumnRow

/-- Whether the key of a row is one of the four that there are. -/
def hasKnownKey (row : ColumnRow) : Bool := ["", "PRI", "UNI", "MUL"].contains row.columnKey

/-- The fault of a row whose key is unknown. -/
def keyFault (row : ColumnRow) : SchemaFault :=
  ⟨row.tableName, row.columnName, .unknownKey row.columnKey⟩

/-- A row whose key is known makes a column of its name. -/
theorem toColumn_of_known {row : ColumnRow} (h : row.hasKnownKey = true) :
    ∃ c, row.toColumn = .ok c ∧ c.name = row.columnName := by
  have hmem : row.columnKey ∈ ColumnKey.all.map ColumnKey.code := List.contains_iff_mem.1 h
  obtain ⟨key, -, hcode⟩ := List.mem_map.1 hmem
  have hkey : ColumnKey.ofCode? row.columnKey = some key :=
    ColumnKey.ofCode?_eq_some_iff.2 hcode.symm
  rw [toColumn, hkey]
  exact ⟨_, rfl, Column.name_cleanDefault _⟩

theorem toColumn_of_unknown {row : ColumnRow} (h : row.hasKnownKey = false) :
    row.toColumn = .error row.keyFault := by
  have hkey : ColumnKey.ofCode? row.columnKey = none := by
    rw [Option.eq_none_iff_forall_ne_some]
    intro key hsome
    have hmem : row.columnKey ∈ ColumnKey.all.map ColumnKey.code :=
      List.mem_map.2 ⟨key, key.mem_all, (ColumnKey.ofCode?_eq_some_iff.1 hsome).symm⟩
    exact Bool.eq_false_iff.1 h (List.contains_iff_mem.2 hmem)
  rw [toColumn, hkey]
  rfl

end ColumnRow

/-! ## Columns of a table -/

/-- A table after the columns of rows were put into it: of each name the last row counts,
and nothing but the columns changes. -/
structure Table.Gains (t : Table) (rows : List ColumnRow) (result : Table) : Prop where
  bare : { result with columns := .empty } = { t with columns := .empty }
  column : ∀ name, (result.columns.get? name).map Except.ok
    = ((rows.filter (·.columnName == name)).getLast?.map ColumnRow.toColumn).or
      ((t.columns.get? name).map Except.ok)

namespace Table.Gains

theorem nil (t : Table) : t.Gains [] t := ⟨rfl, fun _ => rfl⟩

theorem cons {t result : Table} {row : ColumnRow} {rest : List ColumnRow} {c : Column}
    (hcolumn : row.toColumn = .ok c) (hname : c.name = row.columnName)
    (h : (t.addColumn c).Gains rest result) : t.Gains (row :: rest) result where
  bare := h.bare
  column name := by
    rw [h.column, addColumn, Keyed.get?_insert, hname, List.filter_cons]
    by_cases hkey : row.columnName = name
    · rw [if_pos hkey, if_pos (beq_iff_eq.2 hkey), List.getLast?_cons]
      cases (rest.filter (·.columnName == name)).getLast? with
      | none => exact congrArg some hcolumn.symm
      | some last => rfl
    · rw [if_neg hkey, if_neg (mt beq_iff_eq.1 hkey)]

end Table.Gains

/-! ## One row after the other -/

namespace CatalogEntry

/-- Whether a row stops the reading: its table is known, and its key is not. -/
def refuses (isTable : String → Bool) (row : ColumnRow) : Bool :=
  isTable row.tableName && !row.hasKnownKey

/-- What one row does: it is passed over, it stops the reading, or its table gains a
column. -/
inductive Takes (tables : Keyed Table) (row : ColumnRow) (rest : List ColumnRow) : Prop
  | passes (htable : tables.get? row.tableName = none)
    (hrest : addColumns tables (row :: rest) = addColumns tables rest)
  | stops (htable : tables.contains row.tableName = true) (hkey : row.hasKnownKey = false)
    (hrest : addColumns tables (row :: rest) = .error row.keyFault)
  | gains {t : Table} {c : Column} (htable : tables.get? row.tableName = some t)
    (hkey : row.hasKnownKey = true) (hcolumn : row.toColumn = .ok c)
    (hname : c.name = row.columnName)
    (hrest : addColumns tables (row :: rest)
      = addColumns (tables.insert row.tableName (t.addColumn c)) rest)

theorem takes (tables : Keyed Table) (row : ColumnRow) (rest : List ColumnRow) :
    Takes tables row rest := by
  cases htable : tables.get? row.tableName with
  | none => exact .passes htable (by rw [addColumns, htable])
  | some t =>
    cases hkey : row.hasKnownKey with
    | false =>
      refine .stops (Keyed.contains_of_get? htable) hkey ?_
      simp only [addColumns, htable, ColumnRow.toColumn_of_unknown hkey]
    | true =>
      obtain ⟨c, hcolumn, hname⟩ := ColumnRow.toColumn_of_known hkey
      refine .gains htable hkey hcolumn hname ?_
      simp only [addColumns, htable, hcolumn]

/-- A table that gains a column stays the only one of its name. -/
theorem contains_insert_of_get? {tables : Keyed Table} {name : String} {t : Table}
    (h : tables.get? name = some t) (result : Table) :
    (tables.insert name result).contains = tables.contains := by
  funext other
  rw [Keyed.contains_insert]
  by_cases hname : name = other
  · subst hname
    rw [Keyed.contains_of_get? h, Bool.or_true]
  · rw [beq_eq_false_iff_ne.2 hname, Bool.false_or]

/-- Rows are read up to the first that is refused. -/
theorem addColumns_eq (tables : Keyed Table) (rows : List ColumnRow) :
    match rows.find? (refuses tables.contains) with
    | some row => addColumns tables rows = .error row.keyFault
    | none => ∃ result, addColumns tables rows = .ok result := by
  induction rows generalizing tables with
  | nil => exact ⟨tables, rfl⟩
  | cons row rest ih =>
    rw [List.find?_cons, refuses]
    cases takes tables row rest with
    | passes htable hrest =>
      rw [Keyed.contains_of_get?_none htable, hrest]
      exact ih tables
    | stops htable hkey hrest =>
      rw [htable, hkey]
      exact hrest
    | gains htable hkey _ _ hrest =>
      rw [hkey, Bool.not_true, Bool.and_false, hrest, ← contains_insert_of_get? htable]
      exact ih _

/-- What the tables become that rows were put into. -/
theorem gains_of_addColumns {tables result : Keyed Table} {rows : List ColumnRow}
    (h : addColumns tables rows = .ok result) (name : String) :
    (tables.get? name = none → result.get? name = none) ∧
      ∀ t, tables.get? name = some t → ∃ t', result.get? name = some t' ∧
        t.Gains (rows.filter (·.tableName == name)) t' := by
  induction rows generalizing tables with
  | nil =>
    obtain rfl := Except.ok.inj h
    exact ⟨id, fun t ht => ⟨t, ht, .nil t⟩⟩
  | cons row rest ih =>
    rw [List.filter_cons]
    cases takes tables row rest with
    | passes htable hrest =>
      obtain ⟨hnone, hsome⟩ := ih (hrest.symm.trans h)
      refine ⟨hnone, fun t ht => ?_⟩
      have hother : ¬ (row.tableName == name) = true := by
        rw [beq_iff_eq]
        rintro rfl
        exact nomatch ht.symm.trans htable
      rw [if_neg hother]
      exact hsome t ht
    | stops _ _ hrest => exact nomatch hrest.symm.trans h
    | @gains u c htable _ hcolumn hname hrest =>
      obtain ⟨hnone, hsome⟩ := ih (hrest.symm.trans h)
      rw [Keyed.get?_insert] at hnone hsome
      by_cases hkey : row.tableName = name
      · subst hkey
        rw [if_pos rfl] at hsome
        refine ⟨fun hempty => (nomatch hempty.symm.trans htable), fun t ht => ?_⟩
        obtain rfl := Option.some.inj (htable.symm.trans ht)
        obtain ⟨t', ht', hgains⟩ := hsome _ rfl
        rw [if_pos (beq_self_eq_true _)]
        exact ⟨t', ht', hgains.cons hcolumn hname⟩
      · rw [if_neg hkey] at hnone hsome
        rw [if_neg (mt beq_iff_eq.1 hkey)]
        exact ⟨hnone, hsome⟩

/-- Rows of unknown tables may be left out. -/
theorem addColumns_filter (tables : Keyed Table) (rows : List ColumnRow) :
    addColumns tables (rows.filter fun row => tables.contains row.tableName)
      = addColumns tables rows := by
  induction rows generalizing tables with
  | nil => rfl
  | cons row rest ih =>
    rw [List.filter_cons]
    cases htable : tables.get? row.tableName with
    | none =>
      rw [Keyed.contains_of_get?_none htable, if_neg Bool.false_ne_true, ih, addColumns, htable]
    | some t =>
      rw [Keyed.contains_of_get? htable, if_pos rfl, addColumns, addColumns, htable]
      dsimp only
      cases row.toColumn with
      | error fault => rfl
      | ok c => rw [← contains_insert_of_get? htable (t.addColumn c)]; exact ih _

/-! ## All rows -/

/-- Whether the catalog lists a table. -/
def lists (entry : CatalogEntry) (table : String) : Bool :=
  entry.tables.any (·.tableName == table)

theorem contains_tablesOf (entry : CatalogEntry) :
    (tablesOf entry.tables).contains = entry.lists := by
  funext name
  rw [Bool.eq_iff_iff, Keyed.contains_eq_true_iff, tablesOf, Keyed.mem_keys_ofList, lists,
    List.any_eq_true, List.map_map, List.mem_map]
  exact exists_congr fun row => and_congr_right fun _ => beq_iff_eq.symm

theorem get?_tablesOf (rows : List TableRow) (name : String) :
    (tablesOf rows).get? name
      = (rows.filter (·.tableName == name)).getLast?.map TableRow.toTable := by
  rw [tablesOf, Keyed.get?_ofList_eq, List.filter_map, List.getLast?_map, Option.map_map]
  rfl

theorem columns_of_tablesOf {rows : List TableRow} {name : String} {t : Table}
    (h : (tablesOf rows).get? name = some t) : t.columns = .empty := by
  rw [get?_tablesOf] at h
  obtain ⟨row, -, rfl⟩ := Option.map_eq_some_iff.1 h
  rfl

/-- Tables say what the rows of a catalog say: there is a table for each row of a table,
with a column for each row of its columns, both under their own names; where rows share
their names the last counts. -/
structure Describes (entry : CatalogEntry) (tables : Keyed Table) : Prop where
  table : ∀ name, (tables.get? name).map (fun t => { t with columns := .empty })
    = (entry.tables.filter (·.tableName == name)).getLast?.map TableRow.toTable
  column : ∀ {name : String} {t : Table}, tables.get? name = some t → ∀ key,
    (t.columns.get? key).map Except.ok
      = ((entry.columns.filter (·.tableName == name)).filter (·.columnName == key)).getLast?.map
        ColumnRow.toColumn
  tableName : ∀ {name : String} {t : Table}, tables.get? name = some t → t.name = name
  columnName : ∀ {name key : String} {t : Table} {c : Column}, tables.get? name = some t →
    t.columns.get? key = some c → c.name = key
  normal : tables.mapValues Table.normalize = tables

theorem describes_of_toTables {entry : CatalogEntry} {tables : Keyed Table}
    (h : entry.toTables = .ok tables) : entry.Describes tables where
  table name := by
    obtain ⟨hnone, hsome⟩ := gains_of_addColumns h name
    rw [← get?_tablesOf]
    cases hget : (tablesOf entry.tables).get? name with
    | none => rw [hnone hget]; rfl
    | some t =>
      obtain ⟨t', ht', hgains⟩ := hsome t hget
      rw [ht', Option.map_some, hgains.bare, ← columns_of_tablesOf hget]
  column {name t'} hget key := by
    obtain ⟨hnone, hsome⟩ := gains_of_addColumns h name
    cases hbare : (tablesOf entry.tables).get? name with
    | none => exact nomatch hget.symm.trans (hnone hbare)
    | some t =>
      obtain ⟨u, hu, hgains⟩ := hsome t hbare
      obtain rfl := Option.some.inj (hget.symm.trans hu)
      rw [hgains.column, columns_of_tablesOf hbare, Keyed.get?_empty]
      exact Option.or_none
  tableName hget := (isImported_of_toTables h hget).name
  columnName hget hc := ((isImported_of_toTables h hget).column hc).1
  normal := normalize_of_toTables h

/-- The rows of columns decide by the first of a listed table whose key is unknown. -/
theorem toTables_eq (entry : CatalogEntry) :
    match entry.columns.find? (refuses entry.lists) with
    | some row => entry.toTables = .error row.keyFault
    | none => ∃ tables, entry.toTables = .ok tables := by
  rw [← contains_tablesOf]
  exact addColumns_eq _ _

theorem toTables_eq_error_iff {entry : CatalogEntry} {fault : SchemaFault} :
    entry.toTables = .error fault ↔
      ∃ row, entry.columns.find? (refuses entry.lists) = some row ∧ fault = row.keyFault := by
  have heq := entry.toTables_eq
  split at heq
  · next row hrow =>
    rw [heq, hrow]
    constructor
    · intro h
      exact ⟨row, rfl, (Except.error.inj h).symm⟩
    · rintro ⟨found, hfound, rfl⟩
      rw [Option.some.inj hfound]
  · next hnone =>
    obtain ⟨tables, htables⟩ := heq
    rw [htables, hnone]
    constructor
    · exact nofun
    · exact nofun

theorem exists_toTables_eq_ok_iff {entry : CatalogEntry} :
    (∃ tables, entry.toTables = .ok tables) ↔
      ∀ row ∈ entry.columns, entry.lists row.tableName = true → row.hasKnownKey = true := by
  have hrefuses : (∀ row ∈ entry.columns, entry.lists row.tableName = true →
      row.hasKnownKey = true) ↔ entry.columns.find? (refuses entry.lists) = none := by
    rw [List.find?_eq_none]
    refine forall₂_congr fun row _ => ?_
    rw [refuses]
    cases entry.lists row.tableName <;> cases row.hasKnownKey <;> decide
  have heq := entry.toTables_eq
  rw [hrefuses]
  split at heq
  · next row hrow =>
    rw [heq, hrow]
    exact ⟨nofun, nofun⟩
  · next hnone => exact ⟨fun _ => hnone, fun _ => heq⟩

/-- Rows of columns of the same listed tables make the same tables. -/
theorem toTables_congr {entry : CatalogEntry} {columns : List ColumnRow}
    (h : columns.filter (fun row => entry.lists row.tableName)
      = entry.columns.filter fun row => entry.lists row.tableName) :
    toTables { entry with columns := columns } = entry.toTables := by
  rw [← contains_tablesOf] at h
  rw [toTables, toTables, ← addColumns_filter, h, addColumns_filter]

end CatalogEntry

/-! ## What can be wrong with a schema that was read -/

/-- A fault that a schema can have whose tables and columns are held under their names. -/
inductive Schema.HasOwnFault (s : Schema) : SchemaFault → Prop
  | unknownType {table column : String} {t : Table} {c : Column}
    (ht : s.tables.get? table = some t) (hc : t.columns.get? column = some c)
    (htype : c.type? = none) : HasOwnFault s ⟨table, column, .unknownType c.dataType⟩
  | secondPrimaryKey {table first second : String} {t : Table} {c d : Column}
    (ht : s.tables.get? table = some t) (hc : t.columns.get? first = some c)
    (hd : t.columns.get? second = some d) (hne : first ≠ second)
    (hcprimary : c.columnKey = .primary) (hdprimary : d.columnKey = .primary) :
    HasOwnFault s ⟨table, second, .secondPrimaryKey first⟩

namespace CatalogEntry

theorem Describes.hasOwnFault {entry : CatalogEntry} {s : Schema} {fault : SchemaFault}
    (h : entry.Describes s.tables) (hfault : s.validate = .error fault) :
    s.HasOwnFault fault := by
  obtain ⟨site, hdefect, -⟩ := Schema.validate_eq_error_iff.1 hfault
  cases hdefect with
  | table ht hname => exact absurd (h.tableName ht) hname
  | column ht hdefect =>
    rw [h.tableName ht]
    cases hdefect with
    | name hc hname => exact absurd (h.columnName ht hc) hname
    | type hc htype => exact .unknownType ht hc htype
    | primaryKey hc hprimary hfirst hlt =>
      obtain ⟨⟨c, hcfirst, hcprimary⟩, -⟩ := hfirst
      exact .secondPrimaryKey ht hcfirst hc (ne_of_lt hlt) hcprimary hprimary

/-- What is made of the rows of a catalog. -/
structure IsAnalyzed (entry : CatalogEntry) : Prop where
  succeeds : (∃ tables, entry.toTables = .ok tables) ↔
    ∀ row ∈ entry.columns, entry.lists row.tableName = true →
      row.columnKey ∈ ["", "PRI", "UNI", "MUL"]
  /-- The first row that is refused is at fault. -/
  fails : ∀ {fault : SchemaFault}, entry.toTables = .error fault ↔
    ∃ row, entry.columns.find? (refuses entry.lists) = some row ∧ fault = row.keyFault
  describes : ∀ {tables : Keyed Table}, entry.toTables = .ok tables → entry.Describes tables
  /-- Only the rows of listed tables count. -/
  listed : ∀ {columns : List ColumnRow},
    columns.filter (fun row => entry.lists row.tableName)
      = entry.columns.filter (fun row => entry.lists row.tableName) →
    toTables { entry with columns := columns } = entry.toTables
  schema : ∀ {database : String} {s : Schema}, entry.toSchema database = .ok s →
    entry.toTables = .ok s.tables ∧ s.normalize = s ∧
      ∀ {fault : SchemaFault}, s.validate = .error fault → s.HasOwnFault fault

end CatalogEntry

/-- A catalog is read exactly if each row of a listed table's column has a known key, and
fails with the first that has none.  The tables are those of the rows, normal and under
their own names; rows of other tables change nothing; and a schema that was read can only
be invalid for a type that is unknown or for a second primary key of a table. -/
theorem analysis_of_rows (entry : CatalogEntry) : entry.IsAnalyzed where
  succeeds := CatalogEntry.exists_toTables_eq_ok_iff.trans <|
    forall₂_congr fun _ _ => imp_congr_right fun _ => List.contains_iff_mem
  fails := CatalogEntry.toTables_eq_error_iff
  describes := CatalogEntry.describes_of_toTables
  listed := CatalogEntry.toTables_congr
  schema {database s} h := by
    have hnormal : s.normalize = s := CatalogEntry.normalize_of_toSchema h s.name
    obtain ⟨tables, htables, rfl⟩ := CatalogEntry.toSchema_eq_ok h
    exact ⟨htables, hnormal, (CatalogEntry.describes_of_toTables htables).hasOwnFault⟩

/-- A key that is unknown is passed over in a view, and refused in a table. -/
example :
    CatalogEntry.toTables {
      tables := [{ tableName := "item" }]
      columns := [
        { tableName := "stock_view", columnName := "id", columnKey := "X" },
        { tableName := "item", columnName := "id", columnKey := "Y" },
        { tableName := "item", columnName := "label", columnKey := "Z" }] }
      = .error ⟨"item", "id", .unknownKey "Y"⟩ := by
  decide +kernel

end SchemaPlan
