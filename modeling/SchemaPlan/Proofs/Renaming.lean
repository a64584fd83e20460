import Mathlib.Data.Finset.Basic
import SchemaPlan.Proofs.Listing
import SchemaPlan.Proofs.Ranking
set_option autoImplicit false

/-!
# Which tables are renamed

The tables that only the current side has and those that only the target has are
paired within the groups that have the same set of column names, by rank.  A plan
renames the pairs, then drops what stays alone on the one side, then creates what
stays alone on the other (`diff_renames_tables`); nothing else that it does takes the
name of a table away or brings one in.
-/

namespace SchemaPlan

/-- The set of the names of the columns of a table. -/
def Table.columnNames (table : Table) : Finset String := table.columns.keys.toFinset

theorem Table.hasSameColumnNames_iff_columnNames {a b : Table} :
    a.hasSameColumnNames b = true ↔ a.columnNames = b.columnNames := by
  rw [hasSameColumnNames_iff, Keyed.keys_eq_iff, Finset.ext_iff]
  simp only [columnNames, List.mem_toFinset]

/-- Comparing the sizes and one inclusion tells whether two tables have the same set of
column names.  So the test is an equivalence, and it does not matter on which side of a
plan a table is. -/
theorem Table.hasSameColumnNames_equivalence :
    (∀ a b : Table, a.hasSameColumnNames b = true ↔ a.columnNames = b.columnNames) ∧
      Equivalence fun a b : Table => a.hasSameColumnNames b = true := by
  simp only [hasSameColumnNames_iff_columnNames, implies_true, true_and]
  refine ⟨fun a => rfl, ?_, ?_⟩
  · intro a b hab
    exact hab.symm
  · intro a b c hab hbc
    exact hab.trans hbc

namespace Schema

/-- The tables that only one side has are paired by rank within the groups that have
the same column names. -/
theorem tablePairing_byRank (target current : Schema) :
    (target.tablePairing current).ByRank Table.columnNames
      (current.tables.without target.tables) (target.tables.without current.tables) := by
  have hmatch : ∀ gone new : String × Table, new.2.hasSameColumnNames gone.2 = true ↔
      gone.2.columnNames = new.2.columnNames := by
    intro gone new
    rw [Table.hasSameColumnNames_iff_columnNames, eq_comm]
  exact pairUp_byRank hmatch (current.tables.pairwise_without target.tables)
    (target.tables.pairwise_without current.tables)

/-- The part of a plan before any table is renamed, dropped or created. -/
def planBeforeTables (target current : Schema) (database : String) : List Statement :=
  target.defaultsStatement current database
    ++ (target.tables.common current.tables).flatMap fun pair => pair.1.plan pair.2

theorem plan_eq_planBeforeTables (target current : Schema) (database : String) :
    target.plan current database = target.planBeforeTables current database
      ++ (target.tablePairing current).pairs.map (fun pair => .renameTable pair.1.1 pair.2.1)
      ++ (target.tablePairing current).gone.map (fun gone => .dropTable gone.1)
      ++ (target.tablePairing current).new.flatMap
        fun new => .createTable new.2 :: new.2.indexes := rfl

/-- Setting defaults and altering tables on both sides leaves the names of tables
alone. -/
theorem keepsTables_of_mem_planBeforeTables {target current : Schema}
    (htarget : target.WellFormed) (hcurrent : current.WellFormed) {database : String}
    {s : Statement} (h : s ∈ target.planBeforeTables current database) :
    s.removedTable? = none ∧ s.introducedTable? = none := by
  rcases List.mem_append.1 h with h | h
  · rw [eq_of_mem_defaultsStatement h]
    exact ⟨rfl, rfl⟩
  · obtain ⟨pair, hpair, hs⟩ := List.mem_flatMap.1 h
    have halters := alters_of_mem_common htarget hcurrent hpair hs
    exact ⟨Statement.removedTable?_of_alters halters,
      Statement.introducedTable?_of_alters halters⟩

end Schema

/-- Between two valid schemas there is a comparison.  After statements that leave the
names of tables alone it renames the tables of one rank in one group, the old names
ascending, then drops the tables of the current side that stay alone and then creates
those of the target, each with its indexes.  No pairing within the groups has more
pairs, and no table is dropped while one of its group is created. -/
theorem diff_renames_tables {target current : Schema} (htarget : target.validate = .ok ())
    (hcurrent : current.validate = .ok ()) (database : String) :
    ∃ (pairing : Pairing (String × Table) (String × Table)) (others : List Statement),
      pairing.ByRank Table.columnNames (current.tables.without target.tables)
        (target.tables.without current.tables) ∧
      pairing.IsMaximum Table.columnNames (current.tables.without target.tables)
        (target.tables.without current.tables) ∧
      (∀ s ∈ others, s.removedTable? = none ∧ s.introducedTable? = none) ∧
      target.diff current database = .ok (.ofStatements database (others
        ++ pairing.pairs.map (fun pair => .renameTable pair.1.1 pair.2.1)
        ++ pairing.gone.map (fun gone => .dropTable gone.1)
        ++ pairing.new.flatMap fun new => .createTable new.2 :: new.2.indexes)) := by
  have htarget' := (Schema.validate_eq_ok_iff target).1 htarget
  have hcurrent' := (Schema.validate_eq_ok_iff current).1 hcurrent
  have hrank := target.tablePairing_byRank current
  have hmaximum := hrank.isMaximum (current.tables.pairwise_without target.tables)
    (target.tables.pairwise_without current.tables)
  refine ⟨_, target.planBeforeTables current database, hrank, hmaximum,
    fun s => Schema.keepsTables_of_mem_planBeforeTables htarget' hcurrent', ?_⟩
  rw [Schema.diff_of_wellFormed htarget' hcurrent', Schema.plan_eq_planBeforeTables]

/-- A table of one whole number under each of some names. -/
def Table.ofNumbers (name : String) (columns : List String) : Table where
  name := name
  columns := .ofList <| columns.map fun column =>
    (column, { name := column, dataType := "int" })

/-- Rooms, floors, a barn and the staff. -/
def lodge : Schema where
  tables := .ofList [
    ("barn", .ofNumbers "barn" ["cars"]),
    ("cellar", .ofNumbers "cellar" ["floor"]),
    ("loft", .ofNumbers "loft" ["beds", "door"]),
    ("porter", .ofNumbers "porter" ["wage"]),
    ("roof", .ofNumbers "roof" ["floor"]),
    ("suite", .ofNumbers "suite" ["beds", "door"]),
    ("yard", .ofNumbers "yard" ["floor"])]

/-- The lodge with other rooms, a floor less and a garage more. -/
def nextLodge : Schema where
  tables := .ofList [
    ("attic", .ofNumbers "attic" ["floor"]),
    ("bunkroom", .ofNumbers "bunkroom" ["beds", "door"]),
    ("carport", .ofNumbers "carport" ["cars"]),
    ("dormitory", .ofNumbers "dormitory" ["beds", "door"]),
    ("garage", .ofNumbers "garage" ["cars"]),
    ("hall", .ofNumbers "hall" ["floor"]),
    ("porter", .ofNumbers "porter" ["wage"])]

theorem diff_renames_tables_lodge :
    (nextLodge.validate = .ok () ∧ lodge.validate = .ok ()) ∧
    ∃ (pairing : Pairing (String × Table) (String × Table)) (others : List Statement),
      pairing.ByRank Table.columnNames (lodge.tables.without nextLodge.tables)
        (nextLodge.tables.without lodge.tables) ∧
      pairing.IsMaximum Table.columnNames (lodge.tables.without nextLodge.tables)
        (nextLodge.tables.without lodge.tables) ∧
      (∀ s ∈ others, s.removedTable? = none ∧ s.introducedTable? = none) ∧
      nextLodge.diff lodge "lodge" = .ok (.ofStatements "lodge" (others
        ++ pairing.pairs.map (fun pair => .renameTable pair.1.1 pair.2.1)
        ++ pairing.gone.map (fun gone => .dropTable gone.1)
        ++ pairing.new.flatMap fun new => .createTable new.2 :: new.2.indexes)) :=
  ⟨by decide +kernel, diff_renames_tables (by decide +kernel) (by decide +kernel) "lodge"⟩

/-- The pairs of the three groups are interleaved; a floor and a garage stay alone. -/
example : nextLodge.plan lodge "lodge" = [.renameTable "barn" "carport",
    .renameTable "cellar" "attic", .renameTable "loft" "bunkroom", .renameTable "roof" "hall",
    .renameTable "suite" "dormitory", .dropTable "yard",
    .createTable (.ofNumbers "garage" ["cars"])] := by
  decide +kernel

end SchemaPlan
