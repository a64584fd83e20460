import SchemaPlan.Proofs.Agreement
import SchemaPlan.Proofs.Listing
import SchemaPlan.Proofs.Ranking
import SchemaPlan.Proofs.Replay.Indexes
set_option autoImplicit false

/-!
# What is done for a table on both sides

The statements of a plan that name a table of both sides stand together, and they are
those of one block (`diff_shared_table`): its conversion, its renamed columns, the
columns that go, those that come, and those on both sides, each with what its key asks
for.  The block is written out here from the two tables, with the columns that only
one side has paired by rank within their types.
-/

namespace SchemaPlan

/-! ## What statements name -/

/-- The tables that a statement names. -/
def Statement.tables : Statement → List String
  | .alterDatabase .. => []
  | .createTable t => [t.name]
  | .renameTable old new => [old, new]
  | .convertTable table .. | .dropTable table | .addColumn table _ | .dropColumn table _
  | .changeColumn table .. | .addIndex _ table _ | .dropIndex _ table _ | .addPrimaryKey table _
  | .dropPrimaryKey table => [table]

/-- The column for which a statement adds or drops an index. -/
def Statement.indexedColumn? : Statement → Option String
  | .addIndex _ _ column | .dropIndex _ _ column | .addPrimaryKey _ column => some column
  | _ => none

theorem Statement.tables_of_alters {s : Statement} {table : String}
    (h : s.alters? = some table) : s.tables = [table] := by
  cases s <;> simp_all [alters?, altersColumns?, tables]

/-! ## What keys ask for -/

namespace ColumnKey

/-- What takes the key of a column away. -/
def removal (table column : String) : ColumnKey → List Statement
  | .none => []
  | .primary => [.dropPrimaryKey table]
  | .unique => [.dropIndex .unique table column]
  | .multiple => [.dropIndex .plain table column]

/-- What gives a column its key. -/
def addition (table column : String) : ColumnKey → List Statement
  | .none => []
  | .primary => [.addPrimaryKey table column]
  | .unique => [.addIndex .unique table column]
  | .multiple => [.addIndex .plain table column]

end ColumnKey

/-- From one key to another the one is taken away and the other given, unless there is
nothing to do between them. -/
theorem keyTransition_eq (table column : String) (before after : ColumnKey) :
    keyTransition table column before after = if after.Agrees before then []
      else before.removal table column ++ after.addition table column := by
  cases before <;> cases after <;> rfl

/-! ## The block of a table -/

/-- What is done for a column that goes. -/
def droppedColumn (table : String) (gone : String × Column) : List Statement :=
  (gone.2.columnKey.indexKind?.map fun kind => .dropIndex kind table gone.1).toList
    ++ [.dropColumn table gone.1]

/-- What is done for a column that comes. -/
def addedColumn (table : String) (new : String × Column) : List Statement :=
  .addColumn table new.2
    :: (new.2.columnKey.indexKind?.map fun kind => .addIndex kind table new.1).toList

/-- What is done for a column on both sides, given by its name with the definition of
the target and the current one. -/
def keptColumn (table : String) (kept : String × Column × Column) : List Statement :=
  (if kept.2.1.columnKey.Agrees kept.2.2.columnKey then []
    else kept.2.2.columnKey.removal table kept.1 ++ kept.2.1.columnKey.addition table kept.1)
  ++ if kept.2.1.type? = kept.2.2.type? ∧ kept.2.1.charSet = kept.2.2.charSet ∧
      kept.2.1.collation = kept.2.2.collation ∧ kept.2.1.maxLength = kept.2.2.maxLength then []
    else [.changeColumn table kept.1 kept.2.1]

/-- The block of statements for a table on both sides, given how the columns that only
one side has are paired and which columns both have. -/
def tableBlock (table : String) (target current : Table)
    (pairing : Pairing (String × Column) (String × Column))
    (kept : List (String × Column × Column)) : List Statement :=
  (if target.characterSet = current.characterSet ∧ target.collation = current.collation then []
    else [.convertTable table target.characterSet target.collation])
  ++ pairing.pairs.map (fun pair => .changeColumn table pair.1.1 pair.2.2)
  ++ pairing.gone.flatMap (droppedColumn table)
  ++ pairing.new.flatMap (addedColumn table)
  ++ kept.flatMap (keptColumn table)

namespace Table

variable {target current : Table}

theorem dropColumnStatements_eq (hcurrent : current.WellFormed)
    (hname : current.name = target.name) {gone : String × Column}
    (hgone : current.columns.get? gone.1 = some gone.2) :
    target.dropColumnStatements current gone = droppedColumn target.name gone := by
  rw [dropColumnStatements, Statement.dropIndexFor?_eq, hname, hcurrent.column_name hgone,
    droppedColumn]

theorem addColumnStatements_eq (htarget : target.WellFormed) {new : String × Column}
    (hnew : target.columns.get? new.1 = some new.2) :
    target.addColumnStatements new = addedColumn target.name new := by
  rw [addColumnStatements, Statement.addIndexFor?_eq, htarget.column_name hnew, addedColumn]

theorem sharedColumnStatements_eq (htarget : target.WellFormed)
    {kept : String × Column × Column} (hkept : target.columns.get? kept.1 = some kept.2.1) :
    target.sharedColumnStatements kept.2 = keptColumn target.name kept := by
  rw [sharedColumnStatements, keyTransition_eq, htarget.column_name hkept, keptColumn]
  refine (List.append_right_inj _).2 ?_
  cases hdiffers : kept.2.1.differs kept.2.2 with
  | false => rw [if_neg Bool.false_ne_true, if_pos (Column.differs_eq_false_iff.1 hdiffers)]
  | true =>
    have hne : kept.2.1.differs kept.2.2 ≠ false := by
      rw [hdiffers]
      exact Bool.false_ne_true.symm
    rw [if_pos rfl, if_neg (mt Column.differs_eq_false_iff.2 hne)]

/-- The plan of a table is its block. -/
theorem plan_eq_tableBlock (htarget : target.WellFormed) (hcurrent : current.WellFormed)
    (hname : current.name = target.name) :
    target.plan current = tableBlock target.name target current (target.columnPairing current)
      (target.columns.commonEntries current.columns) := by
  have hgone : (target.columnPairing current).gone.flatMap (target.dropColumnStatements current)
      = (target.columnPairing current).gone.flatMap (droppedColumn target.name) :=
    List.flatMap_congr fun gone h =>
      dropColumnStatements_eq hcurrent hname (lookups_of_mem_gone h).1
  have hnew : (target.columnPairing current).new.flatMap target.addColumnStatements
      = (target.columnPairing current).new.flatMap (addedColumn target.name) :=
    List.flatMap_congr fun new h => addColumnStatements_eq htarget (lookups_of_mem_new h).1
  have hkept : (target.columns.common current.columns).flatMap target.sharedColumnStatements
      = (target.columns.commonEntries current.columns).flatMap (keptColumn target.name) := by
    rw [Keyed.common_eq_map_commonEntries, List.flatMap_map]
    refine List.flatMap_congr fun kept h => sharedColumnStatements_eq htarget ?_
    exact ((Keyed.listsCommon_commonEntries _ _).mem_iff.1 h).1
  rw [plan, tableBlock, conversion_eq, hgone, hnew, hkept]

/-- The columns that only one side of a table has are paired by rank within their
types. -/
theorem columnPairing_byRank (target current : Table) :
    (target.columnPairing current).ByRank Column.type?
      (current.columns.without target.columns) (target.columns.without current.columns) :=
  pairUp_byRank Column.type?_beq_iff (current.columns.pairwise_without target.columns)
    (target.columns.pairwise_without current.columns)

end Table

/-! ## Index statements of a block -/

section Indexed

variable {table column : String} {s : Statement}

theorem eq_of_mem_droppedColumn {gone : String × Column} (h : s ∈ droppedColumn table gone)
    (hindex : s.indexedColumn? = some column) : column = gone.1 := by
  rcases List.mem_append.1 h with h | h
  · obtain ⟨kind, -, rfl⟩ := Option.map_eq_some_iff.1 (Option.mem_toList.1 h)
    exact (Option.some.inj hindex).symm
  · rw [List.mem_singleton.1 h] at hindex
    exact nomatch hindex

theorem eq_of_mem_addedColumn {new : String × Column} (h : s ∈ addedColumn table new)
    (hindex : s.indexedColumn? = some column) : column = new.1 := by
  rcases List.mem_cons.1 h with rfl | h
  · exact nomatch hindex
  · obtain ⟨kind, -, rfl⟩ := Option.map_eq_some_iff.1 (Option.mem_toList.1 h)
    exact (Option.some.inj hindex).symm

theorem eq_of_mem_removal {name : String} {key : ColumnKey} (h : s ∈ key.removal table name)
    (hindex : s.indexedColumn? = some column) : column = name := by
  cases key with
  | none => exact nomatch h
  | primary =>
    rw [List.mem_singleton.1 h] at hindex
    exact nomatch hindex
  | unique | multiple =>
    rw [List.mem_singleton.1 h] at hindex
    exact (Option.some.inj hindex).symm

theorem eq_of_mem_addition {name : String} {key : ColumnKey} (h : s ∈ key.addition table name)
    (hindex : s.indexedColumn? = some column) : column = name := by
  cases key with
  | none => exact nomatch h
  | primary | unique | multiple =>
    rw [List.mem_singleton.1 h] at hindex
    exact (Option.some.inj hindex).symm

theorem eq_of_mem_keptColumn {kept : String × Column × Column} (h : s ∈ keptColumn table kept)
    (hindex : s.indexedColumn? = some column) : column = kept.1 := by
  rcases List.mem_append.1 h with h | h
  · split at h
    · exact nomatch h
    · rcases List.mem_append.1 h with h | h
      · exact eq_of_mem_removal h hindex
      · exact eq_of_mem_addition h hindex
  · split at h
    · exact nomatch h
    · rw [List.mem_singleton.1 h] at hindex
      exact nomatch hindex

/-- The index statements of a block are for columns that go or come alone and for those
on both sides. -/
theorem mem_names_of_mem_tableBlock {target current : Table}
    {pairing : Pairing (String × Column) (String × Column)}
    {kept : List (String × Column × Column)}
    (h : s ∈ tableBlock table target current pairing kept)
    (hindex : s.indexedColumn? = some column) :
    column ∈ pairing.gone.map (·.1) ∨ column ∈ pairing.new.map (·.1) ∨
      column ∈ kept.map (·.1) := by
  simp only [tableBlock, List.mem_append, or_assoc] at h
  rcases h with h | h | h | h | h
  · split at h
    · exact nomatch h
    · rw [List.mem_singleton.1 h] at hindex
      exact nomatch hindex
  · obtain ⟨pair, -, rfl⟩ := List.mem_map.1 h
    exact nomatch hindex
  · obtain ⟨gone, hgone, h⟩ := List.mem_flatMap.1 h
    exact .inl (eq_of_mem_droppedColumn h hindex ▸ List.mem_map_of_mem hgone)
  · obtain ⟨new, hnew, h⟩ := List.mem_flatMap.1 h
    exact .inr (.inl (eq_of_mem_addedColumn h hindex ▸ List.mem_map_of_mem hnew))
  · obtain ⟨entry, hentry, h⟩ := List.mem_flatMap.1 h
    exact .inr (.inr (eq_of_mem_keptColumn h hindex ▸ List.mem_map_of_mem hentry))

end Indexed

/-- The block of a table has no index statement for a column of a pair. -/
theorem Table.indexedColumn?_ne_of_mem_pairs {target current : Table} {table column : String}
    (hpair : column ∈ (target.columnPairing current).pairs.flatMap fun p => [p.1.1, p.2.1])
    (hhalf : target.columns.get? column = none ∨ current.columns.get? column = none)
    {s : Statement} (h : s ∈ tableBlock table target current (target.columnPairing current)
      (target.columns.commonEntries current.columns)) :
    s.indexedColumn? ≠ some column := by
  intro hindex
  have hnodup := target.columnPairing_nodup current
  rcases mem_names_of_mem_tableBlock h hindex with hgone | hnew | hkept
  · exact Pairing.not_mem_gone hnodup hpair hgone
  · exact List.disjoint_of_nodup_append hnodup (List.mem_append_left _ hpair) hnew
  · obtain ⟨entry, hentry, rfl⟩ := List.mem_map.1 hkept
    obtain ⟨hc, hd⟩ := (Keyed.listsCommon_commonEntries _ _).mem_iff.1 hentry
    rcases hhalf with hnone | hnone
    · exact nomatch hnone.symm.trans hc
    · exact nomatch hnone.symm.trans hd

/-! ## The place of a block -/

theorem Table.tables_of_mem_creation {t : Table} {s : Statement} (h : s ∈ t.creation) :
    s.tables = [t.name] := by
  rw [creation_eq] at h
  rcases List.mem_cons.1 h with rfl | h
  · rfl
  · exact Statement.tables_of_alters (t.alters_indexes s h)

namespace Schema

variable {target current : Schema} {key : String} {t u : Table}

/-- What is renamed, dropped or created is no table on both sides. -/
theorem not_mem_tables_of_mem_moves (htarget : target.WellFormed)
    (ht : target.tables.get? key = some t) (hu : current.tables.get? key = some u)
    {s : Statement}
    (h : s ∈ (target.tablePairing current).pairs.map
        (fun pair => .renameTable pair.1.1 pair.2.1)
      ++ (target.tablePairing current).gone.map (fun gone => .dropTable gone.1)
      ++ (target.tablePairing current).new.flatMap fun new => new.2.creation) :
    key ∉ s.tables := by
  intro hkey
  simp only [List.mem_append, List.mem_flatMap, List.mem_map, or_assoc] at h
  rcases h with ⟨pair, hpair, rfl⟩ | ⟨gone, hgone, rfl⟩ | ⟨new, hnew, h⟩
  · obtain ⟨⟨-, hfree⟩, -, hfree'⟩ := lookups_of_mem_pairs hpair
    rcases List.mem_pair.1 hkey with rfl | rfl
    · exact Option.some_ne_none t (ht.symm.trans hfree)
    · exact Option.some_ne_none u (hu.symm.trans hfree')
  · obtain rfl := List.mem_singleton.1 hkey
    exact Option.some_ne_none t (ht.symm.trans (lookups_of_mem_gone hgone).2)
  · obtain ⟨hthere, hfree⟩ := lookups_of_mem_new hnew
    rw [Table.tables_of_mem_creation h, List.mem_singleton, htarget.table_name hthere] at hkey
    exact Option.some_ne_none u (hu.symm.trans (hkey ▸ hfree))

/-- The plan of a table on both sides stands in one place of the plan of its schema, and
nothing else in it names the table. -/
theorem plan_eq_append_plan (htarget : target.WellFormed) (hcurrent : current.WellFormed)
    (database : String) (ht : target.tables.get? key = some t)
    (hu : current.tables.get? key = some u) :
    ∃ before after, target.plan current database = before ++ t.plan u ++ after ∧
      ∀ s ∈ before ++ after, key ∉ s.tables := by
  obtain ⟨first, rest, hsplit⟩ := List.append_of_mem (Keyed.mem_common.2 ⟨key, ht, hu⟩)
  have hnodup : ((target.tables.common current.tables).map (·.1.name)).Nodup :=
    names_common_nodup htarget
  rw [hsplit, List.map_append, List.map_cons, List.nodup_middle, List.nodup_cons,
    ← List.map_append, htarget.table_name ht] at hnodup
  have hothers : ∀ pair ∈ first ++ rest, ∀ s ∈ pair.1.plan pair.2, key ∉ s.tables := by
    intro pair hpair s hs hkey
    have hmem : pair ∈ target.tables.common current.tables := by
      rw [hsplit, List.perm_middle.mem_iff]
      exact List.mem_cons_of_mem _ hpair
    rw [Statement.tables_of_alters (alters_of_mem_common htarget hcurrent hmem hs),
      List.mem_singleton] at hkey
    exact hnodup.1 (hkey ▸ List.mem_map_of_mem hpair)
  refine ⟨target.defaultsStatement current database
      ++ first.flatMap fun pair => pair.1.plan pair.2,
    rest.flatMap (fun pair => pair.1.plan pair.2)
      ++ ((target.tablePairing current).pairs.map (fun pair => .renameTable pair.1.1 pair.2.1)
        ++ (target.tablePairing current).gone.map (fun gone => .dropTable gone.1)
        ++ (target.tablePairing current).new.flatMap fun new => new.2.creation), ?_, ?_⟩
  · rw [plan, hsplit]
    simp only [List.flatMap_append, List.flatMap_cons, List.append_assoc]
  · intro s hs
    rcases List.mem_append.1 hs with hs | hs <;> rcases List.mem_append.1 hs with h | h
    · rw [eq_of_mem_defaultsStatement h]
      exact List.not_mem_nil
    · obtain ⟨pair, hpair, h⟩ := List.mem_flatMap.1 h
      exact hothers pair (List.mem_append_left _ hpair) s h
    · obtain ⟨pair, hpair, h⟩ := List.mem_flatMap.1 h
      exact hothers pair (List.mem_append_right _ hpair) s h
    · exact not_mem_tables_of_mem_moves htarget ht hu h

end Schema

/-- Between two valid schemas there is a comparison, and what it lists for a table on both
sides is the block of that table, with the columns that only one side has paired by rank
within their types.  Nothing else that it lists names the table, and the block has no
index statement for either name of a renamed column. -/
theorem diff_shared_table {target current : Schema} (htarget : target.validate = .ok ())
    (hcurrent : current.validate = .ok ()) (database : String) {key : String} {t u : Table}
    (ht : target.tables.get? key = some t) (hu : current.tables.get? key = some u) :
    ∃ (pairing : Pairing (String × Column) (String × Column))
      (kept : List (String × Column × Column)) (before after : List Statement),
      pairing.ByRank Column.type? (u.columns.without t.columns) (t.columns.without u.columns) ∧
      t.columns.ListsCommon u.columns kept ∧
      target.diff current database = .ok (.ofStatements database
        (before ++ tableBlock key t u pairing kept ++ after)) ∧
      (∀ s ∈ before ++ after, key ∉ s.tables) ∧
      ∀ pair ∈ pairing.pairs, ∀ s ∈ tableBlock key t u pairing kept,
        s.indexedColumn? ≠ some pair.1.1 ∧ s.indexedColumn? ≠ some pair.2.1 := by
  have htarget' := (Schema.validate_eq_ok_iff target).1 htarget
  have hcurrent' := (Schema.validate_eq_ok_iff current).1 hcurrent
  obtain ⟨before, after, hplan, hothers⟩ :=
    Schema.plan_eq_append_plan htarget' hcurrent' database ht hu
  obtain rfl := htarget'.table_name ht
  rw [Table.plan_eq_tableBlock (htarget'.table ht) (hcurrent'.table hu)
    (hcurrent'.table_name hu)] at hplan
  refine ⟨_, _, before, after, t.columnPairing_byRank u,
    Keyed.listsCommon_commonEntries _ _, ?_, hothers, fun pair hpair s hs => ?_⟩
  · rw [Schema.diff_of_wellFormed htarget' hcurrent', hplan]
  · obtain ⟨⟨-, hfree⟩, -, hfree'⟩ := lookups_of_mem_pairs hpair
    refine ⟨Table.indexedColumn?_ne_of_mem_pairs (List.mem_flatMap.2 ⟨pair, hpair, ?_⟩)
      (.inl hfree) hs, Table.indexedColumn?_ne_of_mem_pairs
        (List.mem_flatMap.2 ⟨pair, hpair, ?_⟩) (.inr hfree') hs⟩
    · exact List.mem_cons_self
    · exact List.mem_cons_of_mem _ List.mem_cons_self

/-- A tree of an orchard. -/
def tree : Table where
  name := "tree"
  characterSet := "latin1"
  columns := .ofList [
    ("crop", { name := "crop", dataType := "int", columnKey := .multiple }),
    ("kind", { name := "kind", dataType := "varchar", maxLength := 20, columnKey := .unique }),
    ("label", { name := "label", dataType := "varchar", columnKey := .unique }),
    ("row", { name := "row", dataType := "int", columnKey := .primary }),
    ("weight", { name := "weight", dataType := "int", columnKey := .unique })]

/-- The tree with two columns renamed, others gone and new, and other keys. -/
def nextTree : Table where
  name := "tree"
  characterSet := "utf8mb4"
  columns := .ofList [
    ("fruit", { name := "fruit", dataType := "int" }),
    ("height", { name := "height", dataType := "int", columnKey := .multiple }),
    ("kind",
      { name := "kind", dataType := "varchar", maxLength := 40, columnKey := .multiple }),
    ("note", { name := "note", dataType := "text" }),
    ("row", { name := "row", dataType := "int" }),
    ("spacing", { name := "spacing", dataType := "int", columnKey := .multiple })]

/-- An orchard of trees, with a barn. -/
def orchard : Schema where
  tables := .ofList [("barn", { name := "barn" }), ("tree", tree)]

/-- The orchard without the barn. -/
def nextOrchard : Schema where
  tables := .ofList [("tree", nextTree)]

theorem diff_shared_table_orchard :
    (nextOrchard.validate = .ok () ∧ orchard.validate = .ok ()) ∧
    (nextOrchard.tables.get? "tree" = some nextTree ∧ orchard.tables.get? "tree" = some tree) ∧
    ∃ (pairing : Pairing (String × Column) (String × Column))
      (kept : List (String × Column × Column)) (before after : List Statement),
      pairing.ByRank Column.type? (tree.columns.without nextTree.columns)
        (nextTree.columns.without tree.columns) ∧
      nextTree.columns.ListsCommon tree.columns kept ∧
      nextOrchard.diff orchard "orchard" = .ok (.ofStatements "orchard"
        (before ++ tableBlock "tree" nextTree tree pairing kept ++ after)) ∧
      (∀ s ∈ before ++ after, "tree" ∉ s.tables) ∧
      ∀ pair ∈ pairing.pairs, ∀ s ∈ tableBlock "tree" nextTree tree pairing kept,
        s.indexedColumn? ≠ some pair.1.1 ∧ s.indexedColumn? ≠ some pair.2.1 :=
  ⟨by decide +kernel, by decide +kernel,
    diff_shared_table (by decide +kernel) (by decide +kernel) "orchard" (by decide +kernel)
      (by decide +kernel)⟩

/-- Of three new whole numbers two are renamed ones, which lose their indexes unseen. -/
example : nextTree.plan tree = [
    .convertTable "tree" "utf8mb4" "",
    .changeColumn "tree" "crop" { name := "fruit", dataType := "int" },
    .changeColumn "tree" "weight"
      { name := "height", dataType := "int", columnKey := .multiple },
    .dropIndex .unique "tree" "label",
    .dropColumn "tree" "label",
    .addColumn "tree" { name := "note", dataType := "text" },
    .addColumn "tree" { name := "spacing", dataType := "int", columnKey := .multiple },
    .addIndex .plain "tree" "spacing",
    .dropIndex .unique "tree" "kind",
    .addIndex .plain "tree" "kind",
    .changeColumn "tree" "kind"
      { name := "kind", dataType := "varchar", maxLength := 40, columnKey := .multiple },
    .dropPrimaryKey "tree"] := by
  decide +kernel

end SchemaPlan
