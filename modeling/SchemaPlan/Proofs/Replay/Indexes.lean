import SchemaPlan.Proofs.IndexNames
import SchemaPlan.Proofs.Replay.Tables
set_option autoImplicit false

/-!
# Replaying the indexes of tables

Here a table is seen as nothing but the names of its indexes.  An index is dropped
under a name that is there, and added under one that is not; columns come and go
without their indexes, so a renamed column leaves its index behind under the old
name.  Between two valid schemas each statement about an index applies when it is
reached (`diff_indexes_apply`): a plan touches the names of different columns one
after the other, and indexes on different columns never have one name, whatever
stands in the name of the table.
-/

namespace SchemaPlan

open Replay

/-! ## The indexes of a table -/

/-- The kind of index that a column with a key has. -/
def ColumnKey.indexKind? : ColumnKey → Option IndexKind
  | .unique => some .unique
  | .multiple => some .plain
  | _ => Option.none

theorem ColumnKey.indexKind?_eq_some_iff {key : ColumnKey} {kind : IndexKind} :
    key.indexKind? = some kind ↔ key = kind.key := by
  cases key <;> cases kind <;> decide

theorem Statement.addIndexFor?_eq (table column : String) (key : ColumnKey) :
    addIndexFor? table column key
      = key.indexKind?.map fun kind => .addIndex kind table column := by
  cases key <;> rfl

theorem Statement.dropIndexFor?_eq (table column : String) (key : ColumnKey) :
    dropIndexFor? table column key
      = key.indexKind?.map fun kind => .dropIndex kind table column := by
  cases key <;> rfl

namespace Table

/-- The canonical names of the indexes of a table. -/
def indexNames (table : Table) : Keyed Unit :=
  .ofList (table.columns.values.filterMap fun c =>
    c.columnKey.indexKind?.map fun kind => (kind.indexName table.name c.name, ()))

theorem mem_keys_indexNames {table : Table} {name : String} :
    name ∈ table.indexNames.keys ↔ ∃ c ∈ table.columns.values, ∃ kind : IndexKind,
      c.columnKey = kind.key ∧ kind.indexName table.name c.name = name := by
  simp only [indexNames, Keyed.mem_keys_ofList, List.mem_map, List.mem_filterMap,
    Option.map_eq_some_iff, ColumnKey.indexKind?_eq_some_iff]
  constructor
  · rintro ⟨_, ⟨c, hc, kind, hkey, rfl⟩, rfl⟩
    exact ⟨c, hc, kind, hkey, rfl⟩
  · rintro ⟨c, hc, kind, hkey, rfl⟩
    exact ⟨_, ⟨c, hc, kind, hkey, rfl⟩, rfl⟩

/-- A canonical name is there if its column has the key of its kind. -/
theorem indexName_mem_iff {table : Table} (h : table.WellFormed) {kind : IndexKind}
    {column : String} : kind.indexName table.name column ∈ table.indexNames.keys ↔
      ∃ c, table.columns.get? column = some c ∧ c.columnKey = kind.key := by
  rw [mem_keys_indexNames]
  constructor
  · rintro ⟨c, hc, kind', hkey, hname⟩
    obtain ⟨rfl, rfl⟩ := IndexKind.indexName_inj.1 hname
    obtain ⟨e, he, rfl⟩ := List.mem_map.1 hc
    have hget := Keyed.get?_eq_some_iff.2 he
    exact ⟨e.2, (h.column_name hget).symm ▸ hget, hkey⟩
  · rintro ⟨c, hget, hkey⟩
    obtain rfl := h.column_name hget
    exact ⟨c, List.mem_map.2 ⟨_, Keyed.get?_eq_some_iff.1 hget, rfl⟩, kind, hkey, rfl⟩

end Table

/-! ## Statements -/

namespace IndexNames

/-- What a statement does to the names of the indexes of the table that it alters;
`none` if it drops a name that is not there, or adds one that is. -/
def step : Statement → Keyed Unit → Option (Keyed Unit)
  | .addIndex kind table column, names =>
    if names.contains (kind.indexName table column) then none
    else some (names.insert (kind.indexName table column) ())
  | .dropIndex kind table column, names =>
    if names.contains (kind.indexName table column) then
      some (names.erase (kind.indexName table column))
    else none
  | _, names => some names

/-- The rules of the replay. -/
def rules : Rules Unit := ⟨step, fun _ _ => True, fun _ => True⟩

/-- Whether a statement is about an index other than the primary one. -/
def isAbout : Statement → Bool
  | .addIndex .. | .dropIndex .. => true
  | _ => false

/-- The names that indexes on a column can have. -/
def namesOf (table column : String) : List String :=
  [IndexKind.plain.indexName table column, IndexKind.unique.indexName table column]

theorem indexName_mem_namesOf (kind : IndexKind) (table column : String) :
    kind.indexName table column ∈ namesOf table column := by
  cases kind <;> simp [namesOf]

theorem mem_namesOf {table column name : String} (h : name ∈ namesOf table column) :
    ∃ kind : IndexKind, name = kind.indexName table column := by
  rcases List.mem_pair.1 h with rfl | rfl
  · exact ⟨.plain, rfl⟩
  · exact ⟨.unique, rfl⟩

/-- Different columns have different names. -/
theorem namesOf_nodup (table : String) {columns : List String} (h : columns.Nodup) :
    (columns.flatMap (namesOf table)).Nodup := by
  rw [List.nodup_flatMap]
  refine ⟨fun column _ => ?_, h.imp fun {a b} hne name ha hb => ?_⟩
  · rw [namesOf, List.nodup_cons, List.mem_singleton, IndexKind.indexName_inj]
    exact ⟨fun h => (nomatch h.1), List.nodup_singleton _⟩
  · obtain ⟨kind, rfl⟩ := mem_namesOf ha
    obtain ⟨kind', hname⟩ := mem_namesOf hb
    exact hne (IndexKind.indexName_inj.1 hname).2

section Blocks

variable {start : String → Option Unit} {touched : List String} {table column : String}
  {kind : IndexKind} {key : ColumnKey}

theorem establishes_add (hmem : kind.indexName table column ∈ touched)
    (hfree : start (kind.indexName table column) = none) :
    Establishes rules [.addIndex kind table column] touched start
      (Function.update start (kind.indexName table column) (some ())) := by
  intro names _ _ hstart
  have hget := (hstart _ hmem).trans hfree
  refine ⟨names.insert (kind.indexName table column) (), ?_, trivial, fun name hname => ?_,
    fun name hname => ?_⟩
  · simp [run_singleton, rules, step, Keyed.contains_of_get?_none hget]
  · rw [Function.update_apply, Keyed.get?_insert, hstart name hname]
    simp only [eq_comm]
  · exact Keyed.get?_insert_of_ne _ _ fun h => hname (h ▸ hmem)

theorem establishes_drop (hmem : kind.indexName table column ∈ touched)
    (hthere : start (kind.indexName table column) = some ()) :
    Establishes rules [.dropIndex kind table column] touched start
      (Function.update start (kind.indexName table column) none) := by
  intro names _ _ hstart
  have hget := (hstart _ hmem).trans hthere
  refine ⟨names.erase (kind.indexName table column), ?_, trivial, fun name hname => ?_,
    fun name hname => ?_⟩
  · simp [run_singleton, rules, step, Keyed.contains_of_get? hget]
  · rw [Function.update_apply, Keyed.get?_erase, hstart name hname]
    simp only [eq_comm]
  · exact Keyed.get?_erase_of_ne _ fun h => hname (h ▸ hmem)

/-- Statements about other things leave the indexes as they are. -/
theorem establishes_other {block : List Statement} (h : ∀ s ∈ block, isAbout s = false) :
    Establishes rules block touched start start := by
  refine .stay_of_forall fun s hs names _ _ hstart =>
    ⟨names, ?_, trivial, hstart, fun _ _ => rfl⟩
  have hs := h s hs
  cases s <;> first | rfl | exact nomatch hs

/-- The indexes on a column are those of its key. -/
def Fits (start : String → Option Unit) (table column : String) (key : ColumnKey) : Prop :=
  ∀ kind : IndexKind,
    start (kind.indexName table column) = if key = kind.key then some () else none

theorem Fits.lookup (h : Fits start table column kind.key) :
    start (kind.indexName table column) = some () := by
  rw [h kind, if_pos rfl]

theorem Fits.lookup_none (h : Fits start table column key) (hne : key ≠ kind.key) :
    start (kind.indexName table column) = none := by
  rw [h kind, if_neg hne]

/-- A column that goes takes its index with it. -/
theorem runs_gone (h : Fits start table column key) (last : Statement)
    (hlast : isAbout last = false) :
    Runs rules ((Statement.dropIndexFor? table column key).toList ++ [last])
      (namesOf table column) start := by
  have hother : ∀ s ∈ [last], isAbout s = false := by simpa using hlast
  rw [Statement.dropIndexFor?_eq]
  cases hkind : key.indexKind? with
  | none => exact ⟨_, establishes_other hother⟩
  | some kind =>
    obtain rfl := ColumnKey.indexKind?_eq_some_iff.1 hkind
    exact ⟨_, (establishes_drop (indexName_mem_namesOf kind table column) h.lookup).seq
      (establishes_other hother)⟩

/-- A column that comes brings its index. -/
theorem runs_new (h : Fits start table column .none) (first : Statement)
    (hfirst : isAbout first = false) (key : ColumnKey) :
    Runs rules (first :: (Statement.addIndexFor? table column key).toList)
      (namesOf table column) start := by
  have hother : ∀ s ∈ [first], isAbout s = false := by simpa using hfirst
  rw [Statement.addIndexFor?_eq]
  cases key.indexKind? with
  | none => exact ⟨_, establishes_other hother⟩
  | some kind =>
    have hfree : start (kind.indexName table column) = none :=
      h.lookup_none (by cases kind <;> decide)
    exact ⟨_, (establishes_other hother).seq
      (establishes_add (indexName_mem_namesOf kind table column) hfree)⟩

/-- An index that gives way to one of the other kind. -/
theorem runs_swap (kind kind' : IndexKind) (h : Fits start table column kind.key)
    (hne : kind ≠ kind') :
    Runs rules [.dropIndex kind table column, .addIndex kind' table column]
      (namesOf table column) start := by
  have hkey : kind.key ≠ kind'.key := by
    cases kind <;> cases kind' <;> first | decide | exact absurd rfl hne
  have hname : kind'.indexName table column ≠ kind.indexName table column :=
    fun heq => hne (IndexKind.indexName_inj.1 heq).1.symm
  have hfree := (Function.update_of_ne hname none start).trans (h.lookup_none hkey)
  exact ⟨_, (establishes_drop (indexName_mem_namesOf kind table column) h.lookup).seq
    (establishes_add (indexName_mem_namesOf kind' table column) hfree)⟩

/-- A column that stays goes from the index of one key to that of another. -/
theorem runs_transition {before : ColumnKey} (h : Fits start table column before)
    (after : ColumnKey) :
    Runs rules (keyTransition table column before after) (namesOf table column) start := by
  have hadd (kind : IndexKind) (hne : before ≠ kind.key) :
      Runs rules [.addIndex kind table column] (namesOf table column) start :=
    ⟨_, establishes_add (indexName_mem_namesOf kind table column) (h.lookup_none hne)⟩
  have hdrop (kind : IndexKind) (heq : before = kind.key) :
      Runs rules [.dropIndex kind table column] (namesOf table column) start :=
    ⟨_, establishes_drop (indexName_mem_namesOf kind table column) (heq ▸ h).lookup⟩
  cases before <;> cases after
  case none.multiple => exact hadd .plain (by decide)
  case none.unique => exact hadd .unique (by decide)
  case multiple.none => exact hdrop .plain rfl
  case unique.none => exact hdrop .unique rfl
  case multiple.unique => exact runs_swap .plain .unique h (by decide)
  case unique.multiple => exact runs_swap .unique .plain h (by decide)
  all_goals exact ⟨_, establishes_other (by simp [keyTransition, isAbout])⟩

end Blocks

/-! ## Plans -/

/-- Columns that only the target has, or both sides have, have the indexes of their
keys on the current side. -/
theorem fits_indexNames {table : Table} (h : table.WellFormed) {column : String}
    {key : ColumnKey} (hkey : ∀ kind : IndexKind,
      (∃ c, table.columns.get? column = some c ∧ c.columnKey = kind.key) ↔ key = kind.key) :
    Fits table.indexNames.get? table.name column key := by
  intro kind
  split
  · next heq =>
    obtain ⟨_, hget⟩ := Keyed.mem_keys_iff.1 ((Table.indexName_mem_iff h).2 ((hkey kind).2 heq))
    exact hget
  · next hne =>
    rw [Keyed.get?_eq_none_iff, Table.indexName_mem_iff h, hkey]
    exact hne

theorem fits_of_get? {table : Table} (h : table.WellFormed) {column : String} {c : Column}
    (hget : table.columns.get? column = some c) :
    Fits table.indexNames.get? table.name column c.columnKey := by
  refine fits_indexNames h fun kind => ⟨?_, fun hkey => ⟨c, hget, hkey⟩⟩
  rintro ⟨d, hd, hkey⟩
  obtain rfl := Option.some.inj (hget.symm.trans hd)
  exact hkey

theorem fits_of_get?_none {table : Table} (h : table.WellFormed) {column : String}
    (hget : table.columns.get? column = none) :
    Fits table.indexNames.get? table.name column .none := by
  refine fits_indexNames h fun kind => ⟨?_, fun hkey => ?_⟩
  · rintro ⟨c, hc, -⟩
    exact nomatch hget.symm.trans hc
  · exact absurd hkey.symm kind.key_ne_none

section Plan

variable {target current : Table}

theorem runs_dropColumnStatements (hcurrent : current.WellFormed)
    (hname : current.name = target.name) {gone : String × Column}
    (hget : current.columns.get? gone.1 = some gone.2) :
    Runs rules (target.dropColumnStatements current gone) (namesOf target.name gone.1)
      current.indexNames.get? := by
  have hfits := fits_of_get? hcurrent hget
  rw [hname] at hfits
  rw [Table.dropColumnStatements, hname, hcurrent.column_name hget]
  exact runs_gone hfits _ rfl

theorem runs_addColumnStatements (htarget : target.WellFormed) (hcurrent : current.WellFormed)
    (hname : current.name = target.name) {new : String × Column}
    (hnew : target.columns.get? new.1 = some new.2)
    (hfree : current.columns.get? new.1 = none) :
    Runs rules (target.addColumnStatements new) (namesOf target.name new.1)
      current.indexNames.get? := by
  have hfits := fits_of_get?_none hcurrent hfree
  rw [hname] at hfits
  rw [Table.addColumnStatements, htarget.column_name hnew]
  exact runs_new hfits _ rfl _

theorem runs_sharedColumnStatements (hcurrent : current.WellFormed)
    (hname : current.name = target.name) {c d : Column}
    (hget : current.columns.get? c.name = some d) :
    Runs rules (target.sharedColumnStatements (c, d)) (namesOf target.name c.name)
      current.indexNames.get? := by
  have hfits := fits_of_get? hcurrent hget
  rw [hname] at hfits
  obtain ⟨final, htransition⟩ := runs_transition hfits c.columnKey
  refine ⟨final, htransition.seq (establishes_other fun s hs => ?_)⟩
  split at hs
  · rw [List.mem_singleton.1 hs]
    rfl
  · exact nomatch hs

/-- The plan of a table runs on the names of its indexes. -/
theorem run_plan (htarget : target.WellFormed) (hcurrent : current.WellFormed)
    (hname : current.name = target.name) :
    ∃ last, run step (target.plan current) current.indexNames = some last := by
  have hkeys := Keyed.map_common (b := current.columns) Column.name htarget.column_name
  have hnodup := target.planKeys_nodup current
  rw [Table.planKeys, Pairing.keys, List.append_assoc, List.append_assoc,
    List.nodup_append] at hnodup
  -- The columns of the pairs keep their indexes; all others are touched once.
  have hnames := namesOf_nodup target.name hnodup.2.1
  rw [← hkeys, List.flatMap_append, List.flatMap_append, List.flatMap_map, List.flatMap_map,
    List.flatMap_map] at hnames
  have hother : Establishes rules (target.conversion current
      ++ (target.columnPairing current).pairs.map fun pair =>
        .changeColumn target.name pair.1.1 pair.2.2) [] current.indexNames.get?
      current.indexNames.get? := by
    refine establishes_other fun s hs => ?_
    rcases List.mem_append.1 hs with hs | hs
    · rw [Table.eq_of_mem_conversion hs]
      rfl
    · obtain ⟨pair, -, rfl⟩ := List.mem_map.1 hs
      rfl
  have hgone := Runs.flatMap (List.nodup_append.1 hnames).1 fun gone hgone =>
    runs_dropColumnStatements hcurrent hname (lookups_of_mem_gone hgone).1
  have hnew :=
    Runs.flatMap (List.nodup_append.1 (List.nodup_append.1 hnames).2.1).1 fun new hnew =>
    runs_addColumnStatements htarget hcurrent hname (lookups_of_mem_new hnew).1
      (lookups_of_mem_new hnew).2
  have hshared := Runs.flatMap (List.nodup_append.1 (List.nodup_append.1 hnames).2.1).2.1
    fun pair hpair => by
      obtain ⟨key, hc, hd⟩ := Keyed.mem_common.1 hpair
      obtain rfl := htarget.column_name hc
      exact runs_sharedColumnStatements hcurrent hname hd
  have hcolumns := hgone.append hnames (hnew.append (List.nodup_append.1 hnames).2.1 hshared)
  have hblocks := Runs.append (show (([] : List String) ++ _).Nodup from hnames) ⟨_, hother⟩
    hcolumns
  have hplan : target.plan current = (target.conversion current
      ++ (target.columnPairing current).pairs.map fun pair =>
        .changeColumn target.name pair.1.1 pair.2.2)
      ++ ((target.columnPairing current).gone.flatMap (target.dropColumnStatements current)
        ++ ((target.columnPairing current).new.flatMap target.addColumnStatements
          ++ (target.columns.common current.columns).flatMap
            target.sharedColumnStatements)) := by
    simp only [Table.plan, List.append_assoc]
  obtain ⟨last, hrun, -⟩ := (hplan ▸ hblocks).exists_run trivial (guarded_of_forall
    (fun _ _ _ => trivial) _)
  exact ⟨last, hrun⟩

/-- A new table has no indexes, and gets one after the other. -/
theorem run_indexes {table : Table} (h : table.WellFormed) :
    ∃ last, run step table.indexes .empty = some last := by
  have hnames := namesOf_nodup table.name (Table.indexedColumns_nodup h)
  rw [List.flatMap_append] at hnames
  have hkind (kind : IndexKind) (hnodup : ((table.columnsWithKey kind.key).flatMap
      (namesOf table.name)).Nodup) : Runs rules ((table.columnsWithKey kind.key).map
        (.addIndex kind table.name)) ((table.columnsWithKey kind.key).flatMap
        (namesOf table.name)) (Keyed.empty : Keyed Unit).get? := by
    rw [List.map_eq_flatMap]
    exact Runs.flatMap hnodup fun column _ =>
      ⟨_, establishes_add (indexName_mem_namesOf kind table.name column) rfl⟩
  have hblocks := Runs.append hnames (hkind .unique (List.nodup_append.1 hnames).1)
    (hkind .plain (List.nodup_append.1 hnames).2.1)
  obtain ⟨last, hrun, -⟩ := hblocks.exists_run trivial (guarded_of_forall
    (fun _ _ _ => trivial) _)
  exact ⟨last, hrun⟩

end Plan

end IndexNames

/-! ## Schemas -/

/-- A replay of tables that keeps the names of their indexes. -/
def indexTables : TableModel (Keyed Unit) where
  ofTable := Table.indexNames
  create _ := .empty
  rename _ names := names
  alter := IndexNames.step
  requires _ _ := True
  inv _ := True
  inv_ofTable _ := trivial
  inv_rename _ := trivial

/-- The names of the indexes of each table. -/
abbrev IndexSets := Keyed (Keyed Unit)

/-- The canonical names of the indexes of a schema. -/
def Schema.indexSets (schema : Schema) : IndexSets := indexTables.view schema

namespace IndexSets

/-- The names of the indexes after some statements. -/
def replay (sets : IndexSets) (statements : List Statement) : Option IndexSets :=
  run indexTables.step statements sets

/-- A table has an index of a name. -/
def HasIndex (sets : IndexSets) (table name : String) : Prop :=
  ∃ names, sets.get? table = some names ∧ names.contains name = true

end IndexSets

theorem replay_indexSets_plan {target current : Schema} (htarget : target.WellFormed)
    (hcurrent : current.WellFormed) (database : String) :
    ∃ last, current.indexSets.replay (target.plan current database) = some last := by
  obtain ⟨last, hfits⟩ : ∃ last, indexTables.Fits target current last := by
    refine TableModel.exists_fits (fun ht hu => ?_) fun ht => ⟨trivial, ?_⟩
    · have hname := (hcurrent.table_name hu).trans (htarget.table_name ht).symm
      obtain ⟨w, hw⟩ := IndexNames.run_plan (htarget.table ht) (hcurrent.table hu) hname
      exact ⟨w, hw, trivial⟩
    · obtain ⟨w, hw⟩ := IndexNames.run_indexes (htarget.table ht)
      exact ⟨w, hw, trivial⟩
  exact ⟨last, (TableModel.run_plan htarget hcurrent hfits database
    (guarded_of_forall (fun _ _ _ _ _ _ _ => trivial) _)).1⟩

/-! ## Statements that apply -/

/-- Each index that is dropped is there when its statement is reached, and each that
is added is not. -/
structure IndexesApply (current : Schema) (statements : List Statement) : Prop where
  runs : ∃ last, current.indexSets.replay statements = some last
  dropped : ∀ {before after : List Statement} {kind : IndexKind} {table column : String},
    statements = before ++ .dropIndex kind table column :: after →
      ∃ reached, current.indexSets.replay before = some reached ∧
        reached.HasIndex table (kind.indexName table column)
  added : ∀ {before after : List Statement} {kind : IndexKind} {table column : String},
    statements = before ++ .addIndex kind table column :: after →
      ∃ reached, current.indexSets.replay before = some reached ∧
        (∃ names, reached.get? table = some names) ∧
        ¬ reached.HasIndex table (kind.indexName table column)

namespace IndexSets

/-- A run that comes to its end comes to each of its statements. -/
theorem exists_reached {sets last : IndexSets} {before after : List Statement} {s : Statement}
    {table : String} (halters : s.alters? = some table)
    (h : sets.replay (before ++ s :: after) = some last) :
    ∃ reached names, sets.replay before = some reached ∧ reached.get? table = some names ∧
      (IndexNames.step s names).isSome = true := by
  rw [replay, run_append] at h
  obtain ⟨reached, hreached, hrest⟩ := Option.bind_eq_some_iff.1 h
  obtain ⟨next, hnext, -⟩ := Option.bind_eq_some_iff.1 hrest
  rw [TableModel.step_of_alters halters] at hnext
  obtain ⟨names, hnames, hstep⟩ := Option.bind_eq_some_iff.1 hnext
  refine ⟨reached, names, hreached, hnames, ?_⟩
  rw [← Option.isSome_map]
  exact Option.isSome_iff_exists.2 ⟨next, hstep⟩

end IndexSets

theorem indexesApply_plan {target current : Schema} (htarget : target.WellFormed)
    (hcurrent : current.WellFormed) (database : String) :
    IndexesApply current (target.plan current database) where
  runs := replay_indexSets_plan htarget hcurrent database
  dropped {before after kind table column} heq := by
    obtain ⟨last, hlast⟩ := replay_indexSets_plan htarget hcurrent database
    rw [heq] at hlast
    obtain ⟨reached, names, hreached, hnames, hstep⟩ := IndexSets.exists_reached rfl hlast
    refine ⟨reached, hreached, names, hnames, ?_⟩
    rw [IndexNames.step] at hstep
    split at hstep
    · assumption
    · exact nomatch hstep
  added {before after kind table column} heq := by
    obtain ⟨last, hlast⟩ := replay_indexSets_plan htarget hcurrent database
    rw [heq] at hlast
    obtain ⟨reached, names, hreached, hnames, hstep⟩ := IndexSets.exists_reached rfl hlast
    refine ⟨reached, hreached, ⟨names, hnames⟩, ?_⟩
    rintro ⟨names', hnames', hindex⟩
    obtain rfl := Option.some.inj (hnames.symm.trans hnames')
    rw [IndexNames.step, if_pos hindex] at hstep
    exact nomatch hstep

/-- Between two valid schemas there is a comparison: it lists the plan, and every
statement of the plan about an index applies. -/
theorem diff_indexes_apply {target current : Schema} (htarget : target.validate = .ok ())
    (hcurrent : current.validate = .ok ()) (database : String) :
    target.diff current database
        = .ok (.ofStatements database (target.plan current database)) ∧
      IndexesApply current (target.plan current database) := by
  have htarget' := (Schema.validate_eq_ok_iff target).1 htarget
  have hcurrent' := (Schema.validate_eq_ok_iff current).1 hcurrent
  exact ⟨Schema.diff_of_wellFormed htarget' hcurrent' database,
    indexesApply_plan htarget' hcurrent' database⟩

/-- A register, with a table that holds the placeholder of a column in its name. -/
def register : Schema where
  tables := .ofList [
    ("a\x7bcolumn\x7d", { name := "a\x7bcolumn\x7d", columns := .ofList [
      ("code", { name := "code", dataType := "int", columnKey := .unique }),
      ("day", { name := "day", dataType := "date", columnKey := .multiple }),
      ("note", { name := "note", dataType := "text", columnKey := .multiple })] })]

/-- The register with an index of another kind, a renamed column and a new one. -/
def nextRegister : Schema where
  tables := .ofList [
    ("a\x7bcolumn\x7d", { name := "a\x7bcolumn\x7d", columns := .ofList [
      ("code", { name := "code", dataType := "int", columnKey := .multiple }),
      ("date", { name := "date", dataType := "date", columnKey := .multiple }),
      ("size", { name := "size", dataType := "bigint", columnKey := .unique })] })]

theorem diff_indexes_apply_register :
    (nextRegister.validate = .ok () ∧ register.validate = .ok ()) ∧
      nextRegister.diff register "r"
        = .ok (.ofStatements "r" (nextRegister.plan register "r")) ∧
      IndexesApply register (nextRegister.plan register "r") :=
  ⟨by decide +kernel, diff_indexes_apply (by decide +kernel) (by decide +kernel) "r"⟩

end SchemaPlan
