import SchemaPlan.Proofs.ByteOrder
import SchemaPlan.Proofs.Listing
set_option autoImplicit false

/-!
# Creating a table

A table is created with its columns sorted by their own names, and the last of them that
carries the primary key is named as such; elsewhere the columns come in the order of their
keys, and the first that carries the primary key counts.  In a valid table names are keys
and there is one primary key at most, so the order and the choice are the same
(`sortedColumns_eq`, `definedPrimaryKey?_eq`).  From this follows all that the changes say
which create a valid table (`creation_of_validate`).
-/

namespace SchemaPlan

/-! ## The columns by name -/

/-- Where one element at most passes a test, the last that does is the first. -/
theorem find?_reverse {α : Type} {test : α → Bool} {l : List α}
    (h : ∀ a ∈ l, ∀ b ∈ l, test a = true → test b = true → a = b) :
    l.reverse.find? test = l.find? test := by
  cases hfirst : l.find? test with
  | none =>
    rw [List.find?_eq_none] at hfirst ⊢
    exact fun a ha => hfirst a (List.mem_reverse.1 ha)
  | some a =>
    have ha := List.mem_of_find?_eq_some hfirst
    obtain ⟨b, hlast⟩ : ∃ b, l.reverse.find? test = some b := by
      rw [← Option.isSome_iff_exists, List.find?_isSome]
      exact ⟨a, List.mem_reverse.2 ha, List.find?_some hfirst⟩
    have hb := List.mem_reverse.1 (List.mem_of_find?_eq_some hlast)
    rw [hlast, h b hb a ha (List.find?_some hlast) (List.find?_some hfirst)]

namespace Table

section Sorted

variable {table : Table} (h : table.WellFormed)
include h

theorem mem_values_iff {c : Column} :
    c ∈ table.columns.values ↔ table.columns.get? c.name = some c := by
  rw [← table.sortedColumns_perm.mem_iff, mem_sortedColumns h]

/-- The values of a valid table have the order of their keys. -/
theorem values_ascending : table.columns.values.Pairwise fun c d => c.name < d.name := by
  rw [Keyed.values, List.pairwise_map]
  refine table.columns.ascending.imp_of_mem fun {d e} hd he hlt => ?_
  rwa [h.column_name (Keyed.get?_eq_some_iff.2 hd), h.column_name (Keyed.get?_eq_some_iff.2 he)]

/-- Sorted by name, the columns stay in the order of their keys. -/
theorem sortedColumns_eq : table.sortedColumns = table.columns.values :=
  List.mergeSort_of_pairwise ((values_ascending h).imp fun hlt => decide_eq_true hlt.le)

/-- The last column that carries the primary key is the first. -/
theorem definedPrimaryKey?_eq : table.definedPrimaryKey? = table.primaryKey? := by
  rw [definedPrimaryKey?, sortedColumns_eq h, primaryKey?]
  refine find?_reverse fun c hc d hd hcprimary hdprimary => ?_
  have hcget := (mem_values_iff h).1 hc
  have hdget := (mem_values_iff h).1 hd
  have hname : c.name = d.name :=
    h.primary_unique hcget hdget (beq_iff_eq.1 hcprimary) (beq_iff_eq.1 hdprimary)
  rw [hname, hdget] at hcget
  exact (Option.some.inj hcget).symm

end Sorted

/-! ## The changes -/

/-- The columns of a table, each once: their names ascend byte by byte. -/
structure ListsColumns (table : Table) (columns : List Column) : Prop where
  mem_iff : ∀ {c}, c ∈ columns ↔ ∃ key, table.columns.get? key = some c
  ascending : columns.Pairwise fun c d => Text.bytes c.name < Text.bytes d.name

/-- How a definition names the primary key. -/
def primaryKeyText (c : Column) : String := "PRIMARY KEY(" ++ quoteIdentifier c.name ++ ")"

/-- The text that creates a table with some definitions. -/
def creationWith (table : Table) (definitions : List String) : String :=
  "CREATE TABLE " ++ quoteIdentifier table.name
    ++ " (\n\t" ++ String.intercalate ",\n\t" definitions ++ "\n)"
    ++ clause " ENGINE = " table.engine
    ++ clause " CHARACTER SET " table.characterSet
    ++ clause " COLLATE " table.collation
    ++ ";"

/-- The changes that create a table with its columns by name: the table, then its unique
indexes, then its other indexes. -/
structure IsCreatedBy (table : Table) (columns : List Column) (changes : List Change) :
    Prop where
  byName : table.ListsColumns columns
  length : changes.length = 1 + table.columns.values.countP (·.columnKey == .unique)
    + table.columns.values.countP (·.columnKey == .multiple)
  /-- The definitions of the columns are followed by the primary key, if there is one. -/
  changes : changes
    = .ofKind .createTable (table.creationWith
        (columns.map Column.definition ++ (table.primaryKey?.map primaryKeyText).toList))
      :: (columns.filter (·.columnKey == .unique)).map
        (fun c => (Statement.addIndex .unique table.name c.name).change)
      ++ (columns.filter (·.columnKey == .multiple)).map
        (fun c => (Statement.addIndex .plain table.name c.name).change)
  primaryKey : table.definedPrimaryKey? = table.primaryKey?

theorem listsColumns_values {table : Table} (h : table.WellFormed) :
    table.ListsColumns table.columns.values where
  mem_iff {c} := by
    rw [Keyed.values, List.mem_map]
    constructor
    · rintro ⟨e, he, rfl⟩
      exact ⟨e.1, Keyed.get?_eq_some_iff.2 he⟩
    · rintro ⟨key, hget⟩
      exact ⟨(key, c), Keyed.get?_eq_some_iff.1 hget, rfl⟩
  ascending := (values_ascending h).imp Text.bytes_lt_bytes

/-- What a valid table lists between its parentheses. -/
theorem definitions_eq {table : Table} (h : table.WellFormed) :
    table.definitions = table.columns.values.map Column.definition
      ++ (table.primaryKey?.map primaryKeyText).toList := by
  rw [definitions, sortedColumns_eq h, definedPrimaryKey?_eq h]
  cases table.primaryKey? <;> rfl

theorem columnsWithKey_eq {table : Table} (h : table.WellFormed) (key : ColumnKey) :
    table.columnsWithKey key
      = (table.columns.values.filter (·.columnKey == key)).map (·.name) := by
  rw [columnsWithKey, sortedColumns_eq h]

end Table

/-- A valid table is created by one change, one more for each unique index and one more
for each other index; it is defined by its columns in the order of their names' bytes and by
its primary key, if it has one; and the two ways of looking for that key agree. -/
theorem creation_of_validate {table : Table} (h : table.validate = .ok ()) :
    ∃ columns, table.IsCreatedBy columns (table.creation.map Statement.change) := by
  have hwell : table.WellFormed := (Table.validate_eq_ok_iff table).1 h
  have hchanges : table.creation.map Statement.change
      = .ofKind .createTable (table.creationWith (table.columns.values.map Column.definition
          ++ (table.primaryKey?.map Table.primaryKeyText).toList))
        :: (table.columns.values.filter (·.columnKey == .unique)).map
          (fun c => (Statement.addIndex .unique table.name c.name).change)
        ++ (table.columns.values.filter (·.columnKey == .multiple)).map
          (fun c => (Statement.addIndex .plain table.name c.name).change) := by
    rw [Table.creation_eq, Table.indexes, Table.columnsWithKey_eq hwell,
      Table.columnsWithKey_eq hwell, ← Table.definitions_eq hwell, List.map_cons,
      List.map_append, List.map_map, List.map_map, List.map_map, List.map_map]
    rfl
  refine ⟨table.columns.values, Table.listsColumns_values hwell, ?_, hchanges,
    Table.definedPrimaryKey?_eq hwell⟩
  rw [hchanges, List.length_append, List.length_cons, List.length_map, List.length_map,
    ← List.countP_eq_length_filter, ← List.countP_eq_length_filter]
  omega

/-- A table whose columns were not put in by name, two of them with a unique index. -/
def parcel : Table where
  name := "parcel"
  engine := "InnoDB"
  columns := .ofList [
    ("weight", { name := "weight", dataType := "int", isUnsigned := true }),
    ("label",
      { name := "label", dataType := "varchar", maxLength := 40, columnKey := .unique }),
    ("id",
      { name := "id", dataType := "int", columnKey := .primary, extra := "auto_increment" }),
    ("été", { name := "été", dataType := "date", columnKey := .multiple }),
    ("code", { name := "code", dataType := "char", maxLength := 8, columnKey := .unique })]

theorem creation_of_validate_parcel :
    parcel.validate = .ok () ∧
      ∃ columns, parcel.IsCreatedBy columns (parcel.creation.map Statement.change) := by
  have hvalid : parcel.validate = .ok () := by decide +kernel
  exact ⟨hvalid, creation_of_validate hvalid⟩

/-- The columns are sorted, the one whose name starts with the greatest byte at the end. -/
example : parcel.sortedColumns.map (·.name) = ["code", "id", "label", "weight", "été"] := by
  cbv

end SchemaPlan
