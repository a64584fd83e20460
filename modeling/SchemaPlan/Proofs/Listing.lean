import Mathlib.Data.List.Sort
import SchemaPlan.Proofs.Pairing
import SchemaPlan.Proofs.WellFormed
set_option autoImplicit false

/-!
# What a plan lists

Which statements a plan lists, read off from its blocks: the table that a
statement alters, the indexes of a new table, and the names that go and come.
What is picked from a plan is picked from each block (`filterMap_plan`), and each
name that only one side has is listed once.
-/

namespace SchemaPlan

/-! ## Alterations -/

/-- The table whose columns a statement alters, if it alters columns. -/
def Statement.altersColumns? : Statement → Option String
  | .addColumn table _ => some table
  | .dropColumn table _ => some table
  | .changeColumn table .. => some table
  | .addIndex _ table _ => some table
  | .dropIndex _ table _ => some table
  | .addPrimaryKey table _ => some table
  | .dropPrimaryKey table => some table
  | _ => none

/-- The table that a statement alters, if it alters one. -/
def Statement.alters? : Statement → Option String
  | .convertTable table .. => some table
  | s => s.altersColumns?

theorem Statement.alters_of_altersColumns {s : Statement} {table : String}
    (h : s.altersColumns? = some table) : s.alters? = some table := by
  cases s <;> first | exact h | exact nomatch h

/-- What may stand between two keys of a column. -/
theorem mem_keyTransition {table column : String} {before after : ColumnKey} {s : Statement}
    (h : s ∈ keyTransition table column before after) :
    (∃ kind, s = .addIndex kind table column ∧ before ≠ .primary)
      ∨ (∃ kind, s = .dropIndex kind table column ∧ before ≠ .primary)
      ∨ (s = .addPrimaryKey table column ∧ before = .none ∧ after = .primary)
      ∨ (s = .dropPrimaryKey table ∧ before = .primary ∧ after = .none) := by
  cases before <;> cases after <;> simp_all [keyTransition]
  all_goals rcases h with rfl | rfl <;> simp

namespace Table

/-- What is done for a column that goes. -/
theorem mem_dropColumnStatements {target current : Table} {gone : String × Column}
    {s : Statement} (h : s ∈ target.dropColumnStatements current gone) :
    (∃ kind, s = .dropIndex kind current.name gone.2.name) ∨
      s = .dropColumn target.name gone.1 := by
  rcases List.mem_append.1 h with h | h
  · cases hkey : gone.2.columnKey <;> simp_all [Statement.dropIndexFor?]
  · exact .inr (List.mem_singleton.1 h)

/-- What is done for a column that comes. -/
theorem mem_addColumnStatements {target : Table} {new : String × Column} {s : Statement}
    (h : s ∈ target.addColumnStatements new) :
    s = .addColumn target.name new.2 ∨ ∃ kind, s = .addIndex kind target.name new.2.name := by
  rcases List.mem_cons.1 h with h | h
  · exact .inl h
  · cases hkey : new.2.columnKey <;> simp_all [Statement.addIndexFor?]

/-- What is done for a column on both sides. -/
theorem mem_sharedColumnStatements {target : Table} {pair : Column × Column} {s : Statement}
    (h : s ∈ target.sharedColumnStatements pair) :
    s ∈ keyTransition target.name pair.1.name pair.2.columnKey pair.1.columnKey
      ∨ s = .changeColumn target.name pair.1.name pair.1 := by
  rcases List.mem_append.1 h with h | h
  · exact .inl h
  · split at h
    · exact .inr (List.mem_singleton.1 h)
    · exact nomatch h

/-- The part of a table's plan that is about its columns. -/
def columnPlan (target current : Table) : List Statement :=
  (target.columnPairing current).pairs.map
      (fun pair => .changeColumn target.name pair.1.1 pair.2.2)
    ++ (target.columnPairing current).gone.flatMap (target.dropColumnStatements current)
    ++ (target.columnPairing current).new.flatMap target.addColumnStatements
    ++ (target.columns.common current.columns).flatMap target.sharedColumnStatements

theorem plan_eq (target current : Table) :
    target.plan current = target.conversion current ++ target.columnPlan current := by
  simp only [plan, columnPlan, List.append_assoc]

/-- The plan of a table converts it, and renames, drops, adds and redefines columns. -/
theorem mem_plan_iff {target current : Table} {s : Statement} :
    s ∈ target.plan current ↔ s ∈ target.conversion current
      ∨ (∃ pair ∈ (target.columnPairing current).pairs,
        .changeColumn target.name pair.1.1 pair.2.2 = s)
      ∨ (∃ gone ∈ (target.columnPairing current).gone,
        s ∈ target.dropColumnStatements current gone)
      ∨ (∃ new ∈ (target.columnPairing current).new, s ∈ target.addColumnStatements new)
      ∨ ∃ pair ∈ target.columns.common current.columns,
        s ∈ target.sharedColumnStatements pair := by
  simp only [plan, List.mem_append, or_assoc, List.mem_flatMap, List.mem_map]

/-- A conversion sets the character set and the collation of the target. -/
theorem eq_of_mem_conversion {target current : Table} {s : Statement}
    (h : s ∈ target.conversion current) :
    s = .convertTable target.name target.characterSet target.collation := by
  rw [conversion] at h
  split at h
  · exact List.mem_singleton.1 h
  · exact absurd h List.not_mem_nil

/-- The statements that the plan of a table is made of, each with the column that it is
there for. -/
inductive Plans (target current : Table) : Statement → Prop
  | converts :
    Plans target current (.convertTable target.name target.characterSet target.collation)
  | renames {pair} (h : pair ∈ (target.columnPairing current).pairs) :
    Plans target current (.changeColumn target.name pair.1.1 pair.2.2)
  | dropsIndex {gone} (kind) (h : gone ∈ (target.columnPairing current).gone) :
    Plans target current (.dropIndex kind current.name gone.2.name)
  | drops {gone} (h : gone ∈ (target.columnPairing current).gone) :
    Plans target current (.dropColumn target.name gone.1)
  | adds {new} (h : new ∈ (target.columnPairing current).new) :
    Plans target current (.addColumn target.name new.2)
  | addsIndex {new} (kind) (h : new ∈ (target.columnPairing current).new) :
    Plans target current (.addIndex kind target.name new.2.name)
  | indexes {pair} (kind) (h : pair ∈ target.columns.common current.columns)
    (hold : pair.2.columnKey ≠ .primary) :
    Plans target current (.addIndex kind target.name pair.1.name)
  | unindexes {pair} (kind) (h : pair ∈ target.columns.common current.columns)
    (hold : pair.2.columnKey ≠ .primary) :
    Plans target current (.dropIndex kind target.name pair.1.name)
  | addsPrimary {pair} (h : pair ∈ target.columns.common current.columns)
    (hold : pair.2.columnKey = .none) (hnew : pair.1.columnKey = .primary) :
    Plans target current (.addPrimaryKey target.name pair.1.name)
  | dropsPrimary {pair} (h : pair ∈ target.columns.common current.columns)
    (hold : pair.2.columnKey = .primary) (hnew : pair.1.columnKey = .none) :
    Plans target current (.dropPrimaryKey target.name)
  | redefines {pair} (h : pair ∈ target.columns.common current.columns) :
    Plans target current (.changeColumn target.name pair.1.name pair.1)

theorem plans_of_mem {target current : Table} {s : Statement} (h : s ∈ target.plan current) :
    target.Plans current s := by
  rcases mem_plan_iff.1 h with
    h | ⟨pair, hpair, rfl⟩ | ⟨gone, hgone, h⟩ | ⟨new, hnew, h⟩ | ⟨pair, hpair, h⟩
  · rw [eq_of_mem_conversion h]
    exact .converts
  · exact .renames hpair
  · rcases mem_dropColumnStatements h with ⟨kind, rfl⟩ | rfl
    · exact .dropsIndex kind hgone
    · exact .drops hgone
  · rcases mem_addColumnStatements h with rfl | ⟨kind, rfl⟩
    · exact .adds hnew
    · exact .addsIndex kind hnew
  · rcases mem_sharedColumnStatements h with h | rfl
    · rcases mem_keyTransition h with
        ⟨kind, rfl, hold⟩ | ⟨kind, rfl, hold⟩ | ⟨rfl, hold, hnew⟩ | ⟨rfl, hold, hnew⟩
      · exact .indexes kind hpair hold
      · exact .unindexes kind hpair hold
      · exact .addsPrimary hpair hold hnew
      · exact .dropsPrimary hpair hold hnew
    · exact .redefines hpair

/-- The plan of a table renames the columns that are paired. -/
theorem changeColumn_mem_plan {target current : Table} {gone new : String × Column}
    (h : (gone, new) ∈ (target.columnPairing current).pairs) :
    .changeColumn target.name gone.1 new.2 ∈ target.plan current :=
  mem_plan_iff.2 (.inr (.inl ⟨(gone, new), h, rfl⟩))

theorem altersColumns_sharedColumnStatements (target : Table) (pair : Column × Column) :
    ∀ s ∈ target.sharedColumnStatements pair, s.altersColumns? = some target.name := by
  intro s h
  rcases mem_sharedColumnStatements h with h | rfl
  · rcases mem_keyTransition h with
      ⟨kind, rfl, -⟩ | ⟨kind, rfl, -⟩ | ⟨rfl, -⟩ | ⟨rfl, -⟩ <;> rfl
  · rfl

/-- The plan for the columns of a table alters those and no others. -/
theorem altersColumns_of_mem_columnPlan {target current : Table}
    (hname : current.name = target.name) {s : Statement} (h : s ∈ target.columnPlan current) :
    s.altersColumns? = some target.name := by
  simp only [columnPlan, List.mem_append, or_assoc] at h
  rcases h with h | h | h | h
  · obtain ⟨pair, -, rfl⟩ := List.mem_map.1 h
    rfl
  · obtain ⟨gone, -, h⟩ := List.mem_flatMap.1 h
    rcases mem_dropColumnStatements h with ⟨kind, rfl⟩ | rfl
    · exact congrArg some hname
    · rfl
  · obtain ⟨new, -, h⟩ := List.mem_flatMap.1 h
    rcases mem_addColumnStatements h with rfl | ⟨kind, rfl⟩ <;> rfl
  · obtain ⟨pair, -, h⟩ := List.mem_flatMap.1 h
    exact altersColumns_sharedColumnStatements target pair s h

/-- The plan of a table alters that table and no other. -/
theorem alters_of_mem_plan {target current : Table} (hname : current.name = target.name)
    {s : Statement} (h : s ∈ target.plan current) : s.alters? = some target.name := by
  rw [plan_eq] at h
  rcases List.mem_append.1 h with h | h
  · rw [eq_of_mem_conversion h]
    rfl
  · exact Statement.alters_of_altersColumns (altersColumns_of_mem_columnPlan hname h)

end Table

/-! ## The indexes of a new table -/

namespace Table

/-- The columns of a table that have a key, by name. -/
def columnsWithKey (table : Table) (key : ColumnKey) : List String :=
  (table.sortedColumns.filter fun c => c.columnKey == key).map (·.name)

/-- The statements that give a new table its indexes. -/
def indexes (table : Table) : List Statement :=
  (table.columnsWithKey .unique).map (.addIndex .unique table.name)
    ++ (table.columnsWithKey .multiple).map (.addIndex .plain table.name)

theorem creation_eq (table : Table) :
    table.creation = .createTable table :: table.indexes := rfl

theorem sortedColumns_perm (table : Table) : table.sortedColumns.Perm table.columns.values :=
  List.mergeSort_perm _ _

theorem mem_sortedColumns {table : Table} (h : table.WellFormed) {c : Column} :
    c ∈ table.sortedColumns ↔ table.columns.get? c.name = some c := by
  rw [table.sortedColumns_perm.mem_iff, Keyed.values, List.mem_map]
  constructor
  · rintro ⟨e, he, rfl⟩
    have hget := Keyed.get?_eq_some_iff.2 he
    rwa [← h.column_name hget] at hget
  · intro hget
    exact ⟨_, Keyed.get?_eq_some_iff.1 hget, rfl⟩

theorem sortedColumns_names_nodup {table : Table} (h : table.WellFormed) :
    (table.sortedColumns.map (·.name)).Nodup := by
  rw [(table.sortedColumns_perm.map _).nodup_iff, Keyed.values, List.map_map]
  have hkeys : table.columns.entries.map ((·.name) ∘ (·.2)) = table.columns.keys :=
    List.map_congr_left fun e he => h.column_name (Keyed.get?_eq_some_iff.2 he)
  rw [hkeys]
  exact table.columns.keys_nodup

theorem mem_columnsWithKey {table : Table} (h : table.WellFormed) {key : ColumnKey}
    {name : String} : name ∈ table.columnsWithKey key ↔
      ∃ c, table.columns.get? name = some c ∧ c.columnKey = key := by
  rw [columnsWithKey, List.mem_map]
  constructor
  · rintro ⟨c, hc, rfl⟩
    obtain ⟨hsorted, hkey⟩ := List.mem_filter.1 hc
    exact ⟨c, (mem_sortedColumns h).1 hsorted, beq_iff_eq.1 hkey⟩
  · rintro ⟨c, hget, hkey⟩
    obtain rfl := h.column_name hget
    exact ⟨c, List.mem_filter.2 ⟨(mem_sortedColumns h).2 hget, beq_iff_eq.2 hkey⟩, rfl⟩

theorem columnsWithKey_nodup {table : Table} (h : table.WellFormed) (key : ColumnKey) :
    (table.columnsWithKey key).Nodup :=
  (sortedColumns_names_nodup h).sublist (List.filter_sublist.map _)

/-- Each column has at most one index. -/
theorem indexedColumns_nodup {table : Table} (h : table.WellFormed) :
    (table.columnsWithKey .unique ++ table.columnsWithKey .multiple).Nodup := by
  refine List.Nodup.append (columnsWithKey_nodup h _) (columnsWithKey_nodup h _) ?_
  intro name hu hm
  obtain ⟨c, hc, hcu⟩ := (mem_columnsWithKey h).1 hu
  obtain ⟨d, hd, hdm⟩ := (mem_columnsWithKey h).1 hm
  obtain rfl := Option.some.inj (hc.symm.trans hd)
  exact absurd (hcu.symm.trans hdm) (by decide)

theorem mem_indexes {table : Table} {s : Statement} (h : s ∈ table.indexes) :
    ∃ kind column, s = .addIndex kind table.name column := by
  rcases List.mem_append.1 h with h | h
  · obtain ⟨column, -, rfl⟩ := List.mem_map.1 h
    exact ⟨.unique, column, rfl⟩
  · obtain ⟨column, -, rfl⟩ := List.mem_map.1 h
    exact ⟨.plain, column, rfl⟩

theorem altersColumns_indexes (table : Table) :
    ∀ s ∈ table.indexes, s.altersColumns? = some table.name := by
  intro s h
  obtain ⟨kind, column, rfl⟩ := mem_indexes h
  rfl

theorem alters_indexes (table : Table) : ∀ s ∈ table.indexes, s.alters? = some table.name :=
  fun s h => Statement.alters_of_altersColumns (table.altersColumns_indexes s h)

end Table

namespace Schema

/-- The defaults that are set are those of the target. -/
theorem eq_of_mem_defaultsStatement {target current : Schema} {database : String}
    {s : Statement} (h : s ∈ target.defaultsStatement current database) :
    s = .alterDatabase database target.defaultCharacterSet target.defaultCollation := by
  rw [defaultsStatement] at h
  split at h
  · exact List.mem_singleton.1 h
  · exact absurd h List.not_mem_nil

/-- The part of a schema's plan that is about its tables. -/
def tablePlan (target current : Schema) : List Statement :=
  (target.tables.common current.tables).flatMap (fun pair => pair.1.plan pair.2)
    ++ (target.tablePairing current).pairs.map (fun pair => .renameTable pair.1.1 pair.2.1)
    ++ (target.tablePairing current).gone.map (fun gone => .dropTable gone.1)
    ++ (target.tablePairing current).new.flatMap (fun new => new.2.creation)

theorem plan_eq (target current : Schema) (database : String) :
    target.plan current database
      = target.defaultsStatement current database ++ target.tablePlan current := by
  simp only [plan, tablePlan, List.append_assoc]

/-- A plan sets the defaults, plans tables on both sides, and renames, drops and
creates tables. -/
theorem mem_plan_iff {target current : Schema} {database : String} {s : Statement} :
    s ∈ target.plan current database ↔ s ∈ target.defaultsStatement current database
      ∨ (∃ pair ∈ target.tables.common current.tables, s ∈ pair.1.plan pair.2)
      ∨ (∃ pair ∈ (target.tablePairing current).pairs, .renameTable pair.1.1 pair.2.1 = s)
      ∨ (∃ gone ∈ (target.tablePairing current).gone, .dropTable gone.1 = s)
      ∨ ∃ new ∈ (target.tablePairing current).new, s ∈ new.2.creation := by
  simp only [plan, List.mem_append, or_assoc, List.mem_flatMap, List.mem_map]

/-- The plan of a table on both sides is part of the plan of its schema. -/
theorem mem_plan_of_mem_common {target current : Schema} {database : String}
    {pair : Table × Table} (hpair : pair ∈ target.tables.common current.tables) {s : Statement}
    (h : s ∈ pair.1.plan pair.2) : s ∈ target.plan current database :=
  mem_plan_iff.2 (.inr (.inl ⟨pair, hpair, h⟩))

/-- The plan of a table on both sides alters that table and no other. -/
theorem alters_of_mem_common {target current : Schema} (htarget : target.WellFormed)
    (hcurrent : current.WellFormed) {pair : Table × Table}
    (hpair : pair ∈ target.tables.common current.tables) {s : Statement}
    (h : s ∈ pair.1.plan pair.2) : s.alters? = some pair.1.name := by
  obtain ⟨key, ht, hu⟩ := Keyed.mem_common.1 hpair
  have hname := (hcurrent.table_name hu).trans (htarget.table_name ht).symm
  exact Table.alters_of_mem_plan hname h

/-- What alters a table, other than by adding an index, is part of the plan of a table
on both sides. -/
theorem exists_of_alters {target current : Schema} (htarget : target.WellFormed)
    (hcurrent : current.WellFormed) {database table : String} {s : Statement}
    (h : s ∈ target.plan current database) (halters : s.alters? = some table)
    (hindex : ∀ kind column, s ≠ .addIndex kind table column) :
    ∃ t u, target.tables.get? table = some t ∧ current.tables.get? table = some u ∧
      s ∈ t.plan u := by
  rcases mem_plan_iff.1 h with
    h | ⟨⟨t, u⟩, hpair, h⟩ | ⟨pair, -, rfl⟩ | ⟨gone, -, rfl⟩ | ⟨new, -, h⟩
  · rw [eq_of_mem_defaultsStatement h] at halters
    exact nomatch halters
  · obtain ⟨key, ht, hu⟩ := Keyed.mem_common.1 hpair
    have hname := (alters_of_mem_common htarget hcurrent hpair h).symm.trans halters
    rw [htarget.table_name ht] at hname
    obtain rfl := Option.some.inj hname
    exact ⟨t, u, ht, hu, h⟩
  · exact nomatch halters
  · exact nomatch halters
  · rw [Table.creation_eq] at h
    rcases List.mem_cons.1 h with rfl | h
    · exact nomatch halters
    · obtain ⟨kind, column, rfl⟩ := Table.mem_indexes h
      obtain rfl := Option.some.inj halters
      exact absurd rfl (hindex kind column)

/-- The plan for the tables of a schema leaves the defaults alone. -/
theorem ne_alterDatabase_of_mem_tablePlan {target current : Schema}
    (htarget : target.WellFormed)
    (hcurrent : current.WellFormed) {s : Statement} (h : s ∈ target.tablePlan current)
    (database characterSet collation : String) :
    s ≠ .alterDatabase database characterSet collation := by
  rintro rfl
  simp only [tablePlan, List.mem_append, or_assoc] at h
  rcases h with h | h | h | h
  · obtain ⟨pair, hpair, h⟩ := List.mem_flatMap.1 h
    exact nomatch alters_of_mem_common htarget hcurrent hpair h
  · obtain ⟨pair, -, h⟩ := List.mem_map.1 h
    exact nomatch h
  · obtain ⟨gone, -, h⟩ := List.mem_map.1 h
    exact nomatch h
  · obtain ⟨new, -, h⟩ := List.mem_flatMap.1 h
    rw [Table.creation_eq] at h
    rcases List.mem_cons.1 h with h | h
    · exact nomatch h
    · exact nomatch new.2.alters_indexes _ h

end Schema

/-! ## What goes and what comes -/

namespace Statement

/-- The table whose name a statement takes away. -/
def removedTable? : Statement → Option String
  | .renameTable old _ => some old
  | .dropTable table => some table
  | _ => none

/-- The table whose name a statement brings in. -/
def introducedTable? : Statement → Option String
  | .renameTable _ new => some new
  | .createTable t => some t.name
  | _ => none

/-- The column, with its table, whose name a statement takes away. -/
def removedColumn? : Statement → Option (String × String)
  | .changeColumn table old c => if c.name = old then none else some (table, old)
  | .dropColumn table column => some (table, column)
  | _ => none

/-- The column, with its table, whose name a statement brings into a table. -/
def introducedColumn? : Statement → Option (String × String)
  | .changeColumn table old c => if c.name = old then none else some (table, c.name)
  | .addColumn table c => some (table, c.name)
  | _ => none

theorem removedTable?_of_alters {s : Statement} {table : String} (h : s.alters? = some table) :
    s.removedTable? = none := by
  cases s <;> first | rfl | exact nomatch h

theorem introducedTable?_of_alters {s : Statement} {table : String}
    (h : s.alters? = some table) : s.introducedTable? = none := by
  cases s <;> first | rfl | exact nomatch h

theorem removedColumn?_of_alters_none {s : Statement} (h : s.alters? = none) :
    s.removedColumn? = none := by
  cases s <;> first | rfl | exact nomatch h

theorem introducedColumn?_of_alters_none {s : Statement} (h : s.alters? = none) :
    s.introducedColumn? = none := by
  cases s <;> first | rfl | exact nomatch h

end Statement

/-- A list has exactly the members of a set, each once. -/
structure ListsOnce {α : Type} (list : List α) (set : α → Prop) : Prop where
  nodup : list.Nodup
  mem_iff : ∀ {a : α}, a ∈ list ↔ set a

theorem ListsOnce.congr {α : Type} {list : List α} {set set' : α → Prop}
    (h : ListsOnce list set) (hset : ∀ a, set a ↔ set' a) : ListsOnce list set' :=
  ⟨h.nodup, fun {a} => h.mem_iff.trans (hset a)⟩

/-- Lists under distinct tags do not meet. -/
theorem ListsOnce.flatMap_tagged {ι : Type} {items : List ι} {tag : ι → String}
    {names : ι → List String} (set : ι → String → Prop) (hnodup : (items.map tag).Nodup)
    (h : ∀ i ∈ items, ListsOnce (names i) (set i)) :
    ListsOnce (items.flatMap fun i => (names i).map (Prod.mk (tag i)))
      fun p => ∃ i ∈ items, tag i = p.1 ∧ set i p.2 := by
  constructor
  · rw [List.nodup_flatMap]
    refine ⟨fun i hi => (h i hi).nodup.map fun _ _ heq => (Prod.mk.inj heq).2, ?_⟩
    refine (List.pairwise_map.1 hnodup).imp fun {i j} hne p hp hp' => ?_
    obtain ⟨_, -, rfl⟩ := List.mem_map.1 hp
    obtain ⟨_, -, heq⟩ := List.mem_map.1 hp'
    exact hne (Prod.mk.inj heq).1.symm
  · rintro ⟨table, column⟩
    rw [List.mem_flatMap]
    constructor
    · rintro ⟨i, hi, hp⟩
      obtain ⟨_, hname, heq⟩ := List.mem_map.1 hp
      obtain ⟨rfl, rfl⟩ := Prod.mk.inj heq
      exact ⟨i, hi, rfl, (h i hi).mem_iff.1 hname⟩
    · rintro ⟨i, hi, rfl, hset⟩
      exact ⟨i, hi, List.mem_map.2 ⟨column, (h i hi).mem_iff.2 hset, rfl⟩⟩

section Pairings

variable {α β : Type} {matches? : String × β → String × α → Bool} {target : Keyed α}
  {current : Keyed β}

/-- Every key that only the current map has goes once, in a pair or alone. -/
theorem listsOnce_gone :
    let pairing := pairUp matches? (current.without target) (target.without current)
    ListsOnce (pairing.pairs.map (·.1.1) ++ pairing.gone.map (·.1))
      fun key => key ∈ current.keys ∧ key ∉ target.keys := by
  intro pairing
  have hperm := (gone_perm_pairUp matches? (current.without target)
    (target.without current)).map Prod.fst
  rw [List.map_append, List.map_map] at hperm
  refine ⟨hperm.nodup_iff.1 ?_, fun {key} => hperm.mem_iff.symm.trans Keyed.mem_keys_without⟩
  exact Keyed.nodup_of_ascending (current.pairwise_without target)

/-- What stays alone on the current side are the keys that only that side has and
that are not in a pair. -/
theorem mem_keys_gone_iff {key : String} :
    let pairing := pairUp matches? (current.without target) (target.without current)
    key ∈ pairing.gone.map (·.1) ↔
      (key ∈ current.keys ∧ key ∉ target.keys) ∧ key ∉ pairing.pairs.map (·.1.1) := by
  intro pairing
  have hlists : ListsOnce (pairing.pairs.map (·.1.1) ++ pairing.gone.map (·.1))
      fun key => key ∈ current.keys ∧ key ∉ target.keys := listsOnce_gone
  rw [← hlists.mem_iff, List.mem_append]
  constructor
  · intro hgone
    exact ⟨.inr hgone, fun hpair => List.disjoint_of_nodup_append hlists.nodup hpair hgone⟩
  · rintro ⟨hpair | hgone, hnot⟩
    · exact absurd hpair hnot
    · exact hgone

/-- A key that only the current map has is in a pair or stays alone. -/
theorem mem_pairs_or_gone {key : String} (hcurrent : key ∈ current.keys)
    (htarget : key ∉ target.keys) :
    let pairing := pairUp matches? (current.without target) (target.without current)
    (∃ pair ∈ pairing.pairs, pair.1.1 = key) ∨ key ∈ pairing.gone.map (·.1) := by
  intro pairing
  rcases List.mem_append.1 (listsOnce_gone.mem_iff.2 ⟨hcurrent, htarget⟩) with hpair | hgone
  · exact .inl (List.mem_map.1 hpair)
  · exact .inr hgone

/-- Every key that only the target map has comes once, in a pair or alone. -/
theorem listsOnce_new :
    let pairing := pairUp matches? (current.without target) (target.without current)
    ListsOnce (pairing.pairs.map (·.2.1) ++ pairing.new.map (·.1))
      fun key => key ∈ target.keys ∧ key ∉ current.keys := by
  intro pairing
  have hperm := (new_perm_pairUp matches? (current.without target)
    (target.without current)).map Prod.fst
  rw [List.map_append, List.map_map] at hperm
  refine ⟨hperm.nodup_iff.1 ?_, fun {key} => hperm.mem_iff.symm.trans Keyed.mem_keys_without⟩
  exact Keyed.nodup_of_ascending (target.pairwise_without current)

end Pairings

/-- A column that only the current side has is renamed or stays alone. -/
theorem Table.renamed_or_gone {target current : Table} {column : String}
    (hcurrent : column ∈ current.columns.keys) (htarget : column ∉ target.columns.keys) :
    (∃ pair ∈ (target.columnPairing current).pairs, pair.1.1 = column) ∨
      column ∈ (target.columnPairing current).gone.map (·.1) :=
  mem_pairs_or_gone hcurrent htarget

/-- A table that only the current side has is renamed or stays alone. -/
theorem Schema.renamed_or_gone {target current : Schema} {table : String}
    (hcurrent : table ∈ current.tables.keys) (htarget : table ∉ target.tables.keys) :
    (∃ pair ∈ (target.tablePairing current).pairs, pair.1.1 = table) ∨
      table ∈ (target.tablePairing current).gone.map (·.1) :=
  mem_pairs_or_gone hcurrent htarget

/-! ## What is picked from a plan -/

section Picking

theorem flatMap_const_nil {α β : Type} (list : List α) :
    (list.flatMap fun _ => ([] : List β)) = [] :=
  List.flatMap_eq_nil_iff.2 fun _ _ => rfl

variable {δ : Type} (pick : Statement → Option δ)

/-- What is picked from the plan of a table, block by block. -/
theorem Table.filterMap_plan (target current : Table) :
    (target.plan current).filterMap pick = (target.conversion current).filterMap pick
      ++ (target.columnPairing current).pairs.filterMap
        (fun pair => pick (.changeColumn target.name pair.1.1 pair.2.2))
      ++ (target.columnPairing current).gone.flatMap
        (fun gone => (target.dropColumnStatements current gone).filterMap pick)
      ++ (target.columnPairing current).new.flatMap
        (fun new => (target.addColumnStatements new).filterMap pick)
      ++ (target.columns.common current.columns).flatMap
        fun pair => (target.sharedColumnStatements pair).filterMap pick := by
  simp only [plan, List.filterMap_append, List.filterMap_map, List.filterMap_flatMap]
  rfl

/-- What is picked from the plan of a schema, block by block. -/
theorem Schema.filterMap_plan (target current : Schema) (database : String) :
    (target.plan current database).filterMap pick
      = (target.defaultsStatement current database).filterMap pick
      ++ (target.tables.common current.tables).flatMap
        (fun pair => (pair.1.plan pair.2).filterMap pick)
      ++ (target.tablePairing current).pairs.filterMap
        (fun pair => pick (.renameTable pair.1.1 pair.2.1))
      ++ (target.tablePairing current).gone.filterMap (fun gone => pick (.dropTable gone.1))
      ++ (target.tablePairing current).new.flatMap fun new =>
        new.2.creation.filterMap pick := by
  simp only [plan, List.filterMap_append, List.filterMap_map, List.filterMap_flatMap]
  rfl

variable {pick} {target current : Schema}

/-- What is about tables, and not an alteration of one, is picked from renamed,
dropped and created tables. -/
theorem Schema.filterMap_plan_tables (htarget : target.WellFormed)
    (hcurrent : current.WellFormed)
    (hpick : ∀ {s : Statement} {table : String}, s.alters? = some table → pick s = none)
    (hdefaults : ∀ database characterSet collation : String,
      pick (.alterDatabase database characterSet collation) = none) (database : String) :
    (target.plan current database).filterMap pick
      = (target.tablePairing current).pairs.filterMap
        (fun pair => pick (.renameTable pair.1.1 pair.2.1))
      ++ (target.tablePairing current).gone.filterMap (fun gone => pick (.dropTable gone.1))
      ++ (target.tablePairing current).new.filterMap fun new => pick (.createTable new.2) := by
  have hnone : (target.defaultsStatement current database).filterMap pick = [] := by
    refine List.filterMap_eq_nil_iff.2 fun s hs => ?_
    rw [eq_of_mem_defaultsStatement hs, hdefaults]
  have hcommon : (target.tables.common current.tables).flatMap
      (fun pair => (pair.1.plan pair.2).filterMap pick) = [] := by
    refine List.flatMap_eq_nil_iff.2 fun pair hpair =>
      List.filterMap_eq_nil_iff.2 fun s hs => ?_
    exact hpick (alters_of_mem_common htarget hcurrent hpair hs)
  have hcreation : ∀ new : String × Table,
      new.2.creation.filterMap pick = (pick (.createTable new.2)).toList := by
    intro new
    have hindexes : new.2.indexes.filterMap pick = [] :=
      List.filterMap_eq_nil_iff.2 fun s hs => hpick (new.2.alters_indexes s hs)
    rw [Table.creation_eq, List.filterMap_cons, hindexes]
    cases pick (.createTable new.2) <;> rfl
  rw [filterMap_plan, hnone, hcommon, List.nil_append, List.nil_append]
  simp only [hcreation, List.filterMap_eq_flatMap_toList]

/-- What is picked from alterations is picked from the tables on both sides and
from the indexes of new tables. -/
theorem Schema.filterMap_plan_columns
    (hpick : ∀ {s : Statement}, s.alters? = none → pick s = none) (database : String) :
    (target.plan current database).filterMap pick
      = (target.tables.common current.tables).flatMap
        (fun pair => (pair.1.plan pair.2).filterMap pick)
      ++ (target.tablePairing current).new.flatMap fun new => new.2.indexes.filterMap pick := by
  have hnone : (target.defaultsStatement current database).filterMap pick = [] := by
    refine List.filterMap_eq_nil_iff.2 fun s hs => ?_
    rw [eq_of_mem_defaultsStatement hs]
    exact hpick rfl
  have hrename : ∀ pair : (String × Table) × (String × Table),
      pick (.renameTable pair.1.1 pair.2.1) = none := fun _ => hpick rfl
  have hdrop : ∀ gone : String × Table, pick (.dropTable gone.1) = none := fun _ => hpick rfl
  have hcreation : ∀ new : String × Table,
      new.2.creation.filterMap pick = new.2.indexes.filterMap pick := by
    intro new
    rw [Table.creation_eq, List.filterMap_cons_none (hpick rfl)]
  simp only [filterMap_plan, hnone, hrename, hdrop, hcreation, List.filterMap_none,
    List.nil_append, List.append_nil]

/-- Of blocks under distinct tags only one contributes. -/
theorem flatMap_eq_of_tag {ι β : Type} {items : List ι} {tag : ι → String} {block : ι → List β}
    {x : ι} (hnodup : (items.map tag).Nodup) (hx : x ∈ items)
    (hother : ∀ y ∈ items, tag y ≠ tag x → block y = []) : items.flatMap block = block x := by
  induction items with
  | nil => exact nomatch hx
  | cons y rest ih =>
    rw [List.map_cons, List.nodup_cons] at hnodup
    rw [List.flatMap_cons]
    rcases List.mem_cons.1 hx with rfl | hx
    · have hrest : rest.flatMap block = [] := by
        refine List.flatMap_eq_nil_iff.2 fun y hy => hother y (List.mem_cons_of_mem _ hy) ?_
        intro heq
        exact hnodup.1 (heq ▸ List.mem_map.2 ⟨y, hy, rfl⟩)
      rw [hrest, List.append_nil]
    · have hy : block y = [] := by
        refine hother y List.mem_cons_self fun heq => ?_
        exact hnodup.1 (heq ▸ List.mem_map.2 ⟨x, hx, rfl⟩)
      rw [hy, List.nil_append]
      exact ih hnodup.2 hx fun z hz => hother z (List.mem_cons_of_mem _ hz)

theorem Schema.names_common_nodup {target current : Schema} (htarget : target.WellFormed) :
    ((target.tables.common current.tables).map (·.1.name)).Nodup := by
  rw [Keyed.map_common Table.name htarget.table_name]
  exact target.tables.keys_nodup.filter _

/-- The statements of a plan that alter a table on both sides are the plan of that
table. -/
theorem Schema.filter_plan (htarget : target.WellFormed) (hcurrent : current.WellFormed)
    (database : String) {key : String} {t u : Table} (ht : target.tables.get? key = some t)
    (hu : current.tables.get? key = some u) :
    (target.plan current database).filter (fun s => s.alters? = some key) = t.plan u := by
  have hpair : (t, u) ∈ target.tables.common current.tables := Keyed.mem_common.2 ⟨key, ht, hu⟩
  have hcommon : (target.tables.common current.tables).flatMap
      (fun pair => (pair.1.plan pair.2).filter fun s => s.alters? = some key) = t.plan u := by
    rw [flatMap_eq_of_tag (names_common_nodup htarget) hpair]
    · refine List.filter_eq_self.2 fun s hs => ?_
      rw [alters_of_mem_common htarget hcurrent hpair hs, htarget.table_name ht,
        decide_eq_true rfl]
    · intro pair hpair' hne
      refine List.filter_eq_nil_iff.2 fun s hs heq => ?_
      have hname := (alters_of_mem_common htarget hcurrent hpair' hs).symm.trans
        (of_decide_eq_true heq)
      exact hne ((Option.some.inj hname).trans (htarget.table_name ht).symm)
  have hindexes : (target.tablePairing current).new.flatMap
      (fun new => new.2.indexes.filter fun s => s.alters? = some key) = [] := by
    refine List.flatMap_eq_nil_iff.2 fun new hnew => List.filter_eq_nil_iff.2 fun s hs heq => ?_
    obtain ⟨hthere, hfree⟩ := lookups_of_mem_new hnew
    have hname := (new.2.alters_indexes s hs).symm.trans (of_decide_eq_true heq)
    rw [htarget.table_name hthere] at hname
    rw [Option.some.inj hname, hu] at hfree
    exact nomatch hfree
  have hpick : ∀ {s : Statement}, s.alters? = none →
      Option.guard (fun s : Statement => decide (s.alters? = some key)) s = none := by
    intro s h
    rw [Option.guard_eq_none_iff, h]
    rfl
  rw [← List.filterMap_eq_filter, filterMap_plan_columns hpick,
    List.filterMap_eq_filter, hcommon, hindexes, List.append_nil]

end Picking

/-! ## Names that go and come -/

namespace Table

theorem removedColumn?_keyTransition (table column : String) (before after : ColumnKey) :
    (keyTransition table column before after).filterMap Statement.removedColumn? = [] ∧
      (keyTransition table column before after).filterMap Statement.introducedColumn? = [] := by
  cases before <;> cases after <;> exact ⟨rfl, rfl⟩

/-- A column on both sides keeps its name. -/
theorem removedColumn?_sharedColumnStatements (target : Table) (pair : Column × Column) :
    (target.sharedColumnStatements pair).filterMap Statement.removedColumn? = [] ∧
      (target.sharedColumnStatements pair).filterMap Statement.introducedColumn? = [] := by
  obtain ⟨hremoved, hintroduced⟩ := removedColumn?_keyTransition target.name pair.1.name
    pair.2.columnKey pair.1.columnKey
  rw [sharedColumnStatements, List.filterMap_append, List.filterMap_append,
    hremoved, hintroduced]
  split <;> simp [Statement.removedColumn?, Statement.introducedColumn?]

/-- A column that goes takes its own name away. -/
theorem removedColumn?_dropColumnStatements (target current : Table) (gone : String × Column) :
    (target.dropColumnStatements current gone).filterMap Statement.removedColumn?
        = [(target.name, gone.1)] ∧
      (target.dropColumnStatements current gone).filterMap Statement.introducedColumn?
        = [] := by
  unfold dropColumnStatements
  cases gone.2.columnKey <;> exact ⟨rfl, rfl⟩

/-- A column that comes brings its own name. -/
theorem removedColumn?_addColumnStatements (target : Table) (new : String × Column) :
    (target.addColumnStatements new).filterMap Statement.removedColumn? = [] ∧
      (target.addColumnStatements new).filterMap Statement.introducedColumn?
        = [(target.name, new.2.name)] := by
  unfold addColumnStatements
  cases new.2.columnKey <;> exact ⟨rfl, rfl⟩

theorem removedColumn?_conversion (target current : Table) :
    (target.conversion current).filterMap Statement.removedColumn? = [] ∧
      (target.conversion current).filterMap Statement.introducedColumn? = [] := by
  unfold conversion
  split <;> exact ⟨rfl, rfl⟩

theorem name_ne_of_mem_columnPairing {target current : Table} (h : target.WellFormed)
    {pair : (String × Column) × (String × Column)}
    (hpair : pair ∈ (target.columnPairing current).pairs) :
    pair.2.2.name = pair.2.1 ∧ pair.2.2.name ≠ pair.1.1 := by
  obtain ⟨⟨hold, -⟩, hthere, hfree⟩ := lookups_of_mem_pairs hpair
  refine ⟨h.column_name hthere, fun heq => ?_⟩
  rw [← h.column_name hthere, heq, hold] at hfree
  exact nomatch hfree

/-- The plan of a table redefines a column under another name exactly if it
renames it. -/
theorem changeColumn_mem_plan_iff {target current : Table} {old : String} {c : Column}
    (hne : c.name ≠ old) : .changeColumn target.name old c ∈ target.plan current ↔
      ∃ pair ∈ (target.columnPairing current).pairs, pair.1.1 = old ∧ pair.2.2 = c := by
  constructor
  · intro h
    cases plans_of_mem h with
    | renames hpair => exact ⟨_, hpair, rfl, rfl⟩
    -- a column on both sides is redefined under its own name
    | redefines => exact absurd rfl hne
  · rintro ⟨pair, hpair, rfl, rfl⟩
    exact changeColumn_mem_plan hpair

/-- The plan of a table redefines a column on both sides exactly if its definitions
differ, and then as the target has it. -/
theorem redefinition_mem_plan_iff {target current : Table} (htarget : target.WellFormed)
    {column : String} {c d e : Column} (hc : target.columns.get? column = some c)
    (hd : current.columns.get? column = some d) :
    .changeColumn target.name column e ∈ target.plan current ↔ c.differs d = true ∧ e = c := by
  constructor
  · intro h
    rcases mem_plan_iff.1 h with
      h | ⟨pair, hpair, heq⟩ | ⟨gone, -, h⟩ | ⟨new, -, h⟩ | ⟨pair, hpair, h⟩
    · exact nomatch eq_of_mem_conversion h
    -- what is renamed is not on both sides
    · obtain ⟨-, rfl, -⟩ := Statement.changeColumn.inj heq
      exact absurd (hc.symm.trans (lookups_of_mem_pairs hpair).1.2) (Option.some_ne_none c)
    · rcases mem_dropColumnStatements h with ⟨kind, h⟩ | h <;> exact nomatch h
    · rcases mem_addColumnStatements h with h | ⟨kind, h⟩ <;> exact nomatch h
    · obtain ⟨key, hc', hd'⟩ := Keyed.mem_common.1 hpair
      rcases List.mem_append.1 h with h | h
      · rcases mem_keyTransition h with ⟨kind, h, -⟩ | ⟨kind, h, -⟩ | ⟨h, -⟩ | ⟨h, -⟩ <;>
          exact nomatch h
      · split at h
        · next hdiffers =>
          obtain ⟨-, rfl, rfl⟩ := Statement.changeColumn.inj (List.mem_singleton.1 h)
          rw [htarget.column_name hc'] at hc hd
          rw [Option.some.inj (hc.symm.trans hc'), Option.some.inj (hd.symm.trans hd')]
          exact ⟨hdiffers, rfl⟩
        · exact absurd h List.not_mem_nil
  · rintro ⟨hdiffers, rfl⟩
    have hpair : (e, d) ∈ target.columns.common current.columns :=
      Keyed.mem_common.2 ⟨column, hc, hd⟩
    refine mem_plan_iff.2
      (.inr (.inr (.inr (.inr ⟨(e, d), hpair, List.mem_append_right _ ?_⟩))))
    rw [if_pos hdiffers, htarget.column_name hc]
    exact List.mem_singleton_self _

/-- The plan of a table adds exactly the columns that come and are not renamed. -/
theorem addColumn_mem_plan_iff {target current : Table} {c : Column} :
    .addColumn target.name c ∈ target.plan current ↔
      ∃ new ∈ (target.columnPairing current).new, new.2 = c := by
  constructor
  · intro h
    cases plans_of_mem h with
    | adds hnew => exact ⟨_, hnew, rfl⟩
  · rintro ⟨new, hnew, rfl⟩
    exact mem_plan_iff.2 (.inr (.inr (.inr (.inl ⟨new, hnew, List.mem_cons_self⟩))))

/-- The columns whose names the plan of a table takes away. -/
theorem removedColumn?_plan {target : Table} (h : target.WellFormed) (current : Table) :
    (target.plan current).filterMap Statement.removedColumn?
      = ((target.columnPairing current).pairs.map (·.1.1)
        ++ (target.columnPairing current).gone.map (·.1)).map (Prod.mk target.name) := by
  have hpairs : (target.columnPairing current).pairs.filterMap
      (fun pair => Statement.removedColumn? (.changeColumn target.name pair.1.1 pair.2.2))
        = (target.columnPairing current).pairs.map fun pair => (target.name, pair.1.1) := by
    rw [← List.filterMap_eq_map']
    refine List.filterMap_congr fun pair hpair => ?_
    rw [Statement.removedColumn?, if_neg (name_ne_of_mem_columnPairing h hpair).2]
  simp only [filterMap_plan, removedColumn?_conversion, removedColumn?_dropColumnStatements,
    removedColumn?_addColumnStatements, removedColumn?_sharedColumnStatements, hpairs,
    ← List.map_eq_flatMap, flatMap_const_nil, List.nil_append, List.append_nil, List.map_append,
    List.map_map]
  rfl

/-- The columns whose names the plan of a table brings in. -/
theorem introducedColumn?_plan {target : Table} (h : target.WellFormed) (current : Table) :
    (target.plan current).filterMap Statement.introducedColumn?
      = ((target.columnPairing current).pairs.map (·.2.1)
        ++ (target.columnPairing current).new.map (·.1)).map (Prod.mk target.name) := by
  have hpairs : (target.columnPairing current).pairs.filterMap
      (fun pair => Statement.introducedColumn? (.changeColumn target.name pair.1.1 pair.2.2))
        = (target.columnPairing current).pairs.map fun pair => (target.name, pair.2.1) := by
    rw [← List.filterMap_eq_map']
    refine List.filterMap_congr fun pair hpair => ?_
    obtain ⟨hname, hne⟩ := name_ne_of_mem_columnPairing h hpair
    rw [Statement.introducedColumn?, if_neg hne, hname]
  have hnew : (target.columnPairing current).new.flatMap
      (fun new => (target.addColumnStatements new).filterMap Statement.introducedColumn?)
        = (target.columnPairing current).new.map fun new => (target.name, new.1) := by
    rw [List.map_eq_flatMap]
    refine List.flatMap_congr fun new hnew => ?_
    rw [(removedColumn?_addColumnStatements target new).2,
      h.column_name (lookups_of_mem_new hnew).1]
  simp only [filterMap_plan, removedColumn?_conversion, removedColumn?_dropColumnStatements,
    removedColumn?_sharedColumnStatements, hpairs, hnew, flatMap_const_nil, List.nil_append,
    List.append_nil, List.map_append, List.map_map]
  rfl

end Table

namespace Schema

variable {target current : Schema}

/-- A plan renames exactly the tables that are paired. -/
theorem renameTable_mem_plan_iff (htarget : target.WellFormed) (hcurrent : current.WellFormed)
    {database old new : String} : .renameTable old new ∈ target.plan current database ↔
      ∃ pair ∈ (target.tablePairing current).pairs, pair.1.1 = old ∧ pair.2.1 = new := by
  constructor
  · intro h
    rcases mem_plan_iff.1 h with
      h | ⟨pair, hpair, h⟩ | ⟨pair, hpair, heq⟩ | ⟨gone, -, heq⟩ | ⟨created, -, h⟩
    · exact nomatch eq_of_mem_defaultsStatement h
    · exact nomatch alters_of_mem_common htarget hcurrent hpair h
    · obtain ⟨hold, hnew⟩ := Statement.renameTable.inj heq
      exact ⟨pair, hpair, hold, hnew⟩
    · exact nomatch heq
    · rw [Table.creation_eq, List.mem_cons] at h
      rcases h with heq | h
      · exact nomatch heq
      · exact nomatch created.2.alters_indexes _ h
  · rintro ⟨pair, hpair, rfl, rfl⟩
    exact mem_plan_iff.2 (.inr (.inr (.inl ⟨pair, hpair, rfl⟩)))

/-- A plan redefines a column on both sides of a table on both sides exactly if its
definitions differ, and then as the target has it. -/
theorem redefinition_mem_plan_iff (htarget : target.WellFormed) (hcurrent : current.WellFormed)
    {database key column : String} {t u : Table} {c d e : Column}
    (ht : target.tables.get? key = some t) (hu : current.tables.get? key = some u)
    (hc : t.columns.get? column = some c) (hd : u.columns.get? column = some d) :
    .changeColumn key column e ∈ target.plan current database ↔ c.differs d = true ∧ e = c := by
  rw [← Table.redefinition_mem_plan_iff (htarget.table ht) hc hd, htarget.table_name ht]
  constructor
  · intro h
    obtain ⟨t', u', ht', hu', h⟩ := exists_of_alters htarget hcurrent h rfl fun _ _ => nofun
    obtain rfl := Option.some.inj (ht.symm.trans ht')
    obtain rfl := Option.some.inj (hu.symm.trans hu')
    exact h
  · exact mem_plan_of_mem_common (Keyed.mem_common.2 ⟨key, ht, hu⟩)

/-- The tables whose names a plan takes away. -/
theorem removedTable?_plan (htarget : target.WellFormed) (hcurrent : current.WellFormed)
    (database : String) :
    (target.plan current database).filterMap Statement.removedTable?
      = (target.tablePairing current).pairs.map (·.1.1)
        ++ (target.tablePairing current).gone.map (·.1) := by
  rw [filterMap_plan_tables htarget hcurrent Statement.removedTable?_of_alters fun _ _ _ => rfl]
  simp only [Statement.removedTable?, List.filterMap_none, List.append_nil,
    List.filterMap_eq_map']

/-- The tables whose names a plan brings in. -/
theorem introducedTable?_plan (htarget : target.WellFormed) (hcurrent : current.WellFormed)
    (database : String) :
    (target.plan current database).filterMap Statement.introducedTable?
      = (target.tablePairing current).pairs.map (·.2.1)
        ++ (target.tablePairing current).new.map (·.1) := by
  have hnew : (target.tablePairing current).new.filterMap
      (fun new => Statement.introducedTable? (.createTable new.2))
        = (target.tablePairing current).new.map (·.1) := by
    rw [← List.filterMap_eq_map']
    refine List.filterMap_congr fun new hnew => ?_
    rw [Statement.introducedTable?, htarget.table_name (lookups_of_mem_new hnew).1]
  rw [filterMap_plan_tables htarget hcurrent Statement.introducedTable?_of_alters
    fun _ _ _ => rfl, hnew]
  simp only [Statement.introducedTable?, List.filterMap_none, List.append_nil,
    List.filterMap_eq_map']

/-- What tables on both sides list of their columns, each table under its name. -/
theorem listsOnce_common (htarget : target.WellFormed)
    {names : Table → Table → List String} {set : Table → Table → String → Prop}
    (h : ∀ t u, ListsOnce (names t u) (set t u)) :
    ListsOnce ((target.tables.common current.tables).flatMap
        fun pair => (names pair.1 pair.2).map (Prod.mk pair.1.name))
      fun p => ∃ t u, target.tables.get? p.1 = some t ∧ current.tables.get? p.1 = some u ∧
        set t u p.2 := by
  refine (ListsOnce.flatMap_tagged (fun pair => set pair.1 pair.2) (names_common_nodup htarget)
    fun pair _ => h pair.1 pair.2).congr fun p => ?_
  constructor
  · rintro ⟨⟨t, u⟩, hpair, htag, hset⟩
    obtain ⟨key, ht, hu⟩ := Keyed.mem_common.1 hpair
    obtain rfl := htarget.table_name ht
    rw [← htag]
    exact ⟨t, u, ht, hu, hset⟩
  · rintro ⟨t, u, ht, hu, hset⟩
    exact ⟨(t, u), Keyed.mem_common.2 ⟨p.1, ht, hu⟩, htarget.table_name ht, hset⟩

theorem wellFormed_of_mem_common (htarget : target.WellFormed) {pair : Table × Table}
    (h : pair ∈ target.tables.common current.tables) : pair.1.WellFormed := by
  obtain ⟨key, ht, -⟩ := Keyed.mem_common.1 h
  exact htarget.table ht

/-- A plan takes the name of each column away that only the current side of a
shared table has, and of no other. -/
theorem listsOnce_removedColumn? (htarget : target.WellFormed) (database : String) :
    ListsOnce ((target.plan current database).filterMap Statement.removedColumn?)
      fun p => ∃ t u, target.tables.get? p.1 = some t ∧ current.tables.get? p.1 = some u ∧
        p.2 ∈ u.columns.keys ∧ p.2 ∉ t.columns.keys := by
  have hindexes : ∀ t : Table, t.indexes.filterMap Statement.removedColumn? = [] := by
    refine fun t => List.filterMap_eq_nil_iff.2 fun s hs => ?_
    obtain ⟨kind, column, rfl⟩ := Table.mem_indexes hs
    rfl
  have hcolumns : ∀ t u : Table, ListsOnce
      ((t.columnPairing u).pairs.map (·.1.1) ++ (t.columnPairing u).gone.map (·.1))
        fun key => key ∈ u.columns.keys ∧ key ∉ t.columns.keys := fun t u => listsOnce_gone
  rw [filterMap_plan_columns Statement.removedColumn?_of_alters_none,
    List.flatMap_congr fun pair hpair =>
      Table.removedColumn?_plan (wellFormed_of_mem_common htarget hpair) pair.2]
  simp only [hindexes, flatMap_const_nil, List.append_nil]
  exact listsOnce_common htarget hcolumns

/-- A plan brings the name of each column in that only the target side of a
shared table has, and of no other. -/
theorem listsOnce_introducedColumn? (htarget : target.WellFormed) (database : String) :
    ListsOnce ((target.plan current database).filterMap Statement.introducedColumn?)
      fun p => ∃ t u, target.tables.get? p.1 = some t ∧ current.tables.get? p.1 = some u ∧
        p.2 ∈ t.columns.keys ∧ p.2 ∉ u.columns.keys := by
  have hindexes : ∀ t : Table, t.indexes.filterMap Statement.introducedColumn? = [] := by
    refine fun t => List.filterMap_eq_nil_iff.2 fun s hs => ?_
    obtain ⟨kind, column, rfl⟩ := Table.mem_indexes hs
    rfl
  have hcolumns : ∀ t u : Table, ListsOnce
      ((t.columnPairing u).pairs.map (·.2.1) ++ (t.columnPairing u).new.map (·.1))
        fun key => key ∈ t.columns.keys ∧ key ∉ u.columns.keys := fun t u => listsOnce_new
  rw [filterMap_plan_columns Statement.introducedColumn?_of_alters_none,
    List.flatMap_congr fun pair hpair =>
      Table.introducedColumn?_plan (wellFormed_of_mem_common htarget hpair) pair.2]
  simp only [hindexes, flatMap_const_nil, List.append_nil]
  exact listsOnce_common htarget hcolumns

end Schema

end SchemaPlan
