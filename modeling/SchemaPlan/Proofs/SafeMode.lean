import SchemaPlan.Proofs.Applying
import SchemaPlan.Proofs.Soundness
set_option autoImplicit false

/-!
# Safe mode

In safe mode the destructive changes of a plan are left out.  What they would have
taken away is still there when the later statements are reached, and none of these
minds: a table or column that stays alone on the current side is named by no
statement but those that drop it.  So the statements that are sent still find the
names that they refer to, and not those that they bring in; they lead to the names
of the target and to those that were to be dropped; and a name goes only where it is
renamed (`diff_safe_mode`).
-/

namespace SchemaPlan

open Replay

/-! ## What is sent -/

/-- Whether a statement is sent in safe mode. -/
def Statement.isSafe (s : Statement) : Bool := !s.change.isDestructive

/-- The statements of a plan that are sent in safe mode, in order. -/
def Schema.safePlan (target current : Schema) (database : String) : List Statement :=
  (target.plan current database).filter Statement.isSafe

/-- What is sent in safe mode are the texts of the safe statements. -/
theorem Comparison.sentTexts_change (statements : List Statement) :
    sentTexts true (statements.map Statement.change)
      = (statements.filter Statement.isSafe).map Statement.sql := by
  rw [sentTexts, List.filter_map, List.map_map]
  rfl

/-- In safe mode a comparison sends some statements, in order, whenever it is applied
up to the end; and it is applied so if its log can be written and the server refuses
none of them. -/
structure Comparison.SendsInSafeMode (comparison : Comparison) (statements : List Statement) :
    Prop where
  sent : ∀ {changeLog : Option String} {w w₁ : World} {report : ApplyReport},
    comparison.apply true changeLog w = (.ok report, w₁) →
      w₁.received = w.received ++ statements.map Statement.sql
  completes : ∀ {changeLog : Option String} {w w₁ : World},
    comparison.writeLog changeLog w = (.ok (), w₁) →
      Comparison.Accepted w (statements.map Statement.sql) →
        ∃ report last, comparison.apply true changeLog w = (.ok report, last)

theorem Comparison.sendsInSafeMode_ofStatements (database : String)
    (statements : List Statement) :
    (ofStatements database statements).SendsInSafeMode
      (statements.filter Statement.isSafe) where
  sent h := by
    rw [(apply_eq_ok h).1, changes_ofStatements, sentTexts_change]
  completes hlog haccepted := by
    refine apply_of_accepted hlog ?_
    rwa [changes_ofStatements, sentTexts_change]

/-! ## Maps that keep what is gone -/

namespace Keyed

variable {α : Type}

/-- A map with more entries. -/
def insertAll (map : Keyed α) (entries : List (String × α)) : Keyed α :=
  entries.foldl (fun m e => m.insert e.1 e.2) map

theorem get?_insertAll_of_mem {map : Keyed α} {entries : List (String × α)}
    (hnodup : (entries.map (·.1)).Nodup) {key : String} {value : α}
    (h : (key, value) ∈ entries) : (map.insertAll entries).get? key = some value :=
  get?_foldl_insert_of_mem hnodup h

theorem get?_insertAll_of_not_mem {map : Keyed α} {entries : List (String × α)} {key : String}
    (h : key ∉ entries.map (·.1)) : (map.insertAll entries).get? key = map.get? key :=
  get?_foldl_insert_of_not_mem h

theorem contains_insertAll {map : Keyed α} {entries : List (String × α)} {key : String} :
    (map.insertAll entries).contains key = true ↔ key ∈ entries.map (·.1) ∨ key ∈ map.keys := by
  rw [contains_eq_true_iff, insertAll, mem_keys_foldl_insert]

end Keyed

/-! ## The columns of a table -/

namespace Table

/-- The names of the columns once the safe part of a plan is done. -/
def keptNames (target current : Table) : Keyed Unit :=
  target.columns.names.insertAll
    ((target.columnPairing current).gone.map fun gone => (gone.1, ()))

variable {target current : Table}

theorem contains_keptNames {column : String} :
    (target.keptNames current).contains column = true ↔
      column ∈ (target.columnPairing current).gone.map (·.1) ∨
      column ∈ target.columns.keys := by
  rw [keptNames, Keyed.contains_insertAll, List.map_map, Keyed.names, Keyed.keys_mapValues]
  rfl

theorem get?_keptNames_of_not_mem {column : String}
    (h : column ∉ (target.columnPairing current).gone.map (·.1)) :
    (target.keptNames current).get? column = target.columns.names.get? column := by
  refine Keyed.get?_insertAll_of_not_mem ?_
  rwa [List.map_map]

/-- A column that would be dropped stays. -/
theorem get?_keptNames_of_mem {column : String}
    (h : column ∈ (target.columnPairing current).gone.map (·.1)) :
    (target.keptNames current).get? column = some () := by
  have hthere := contains_keptNames.2 (.inl h)
  rw [← Keyed.isSome_get?, Option.isSome_iff_exists] at hthere
  obtain ⟨_, hget⟩ := hthere
  exact hget

/-- The plan of a table without what is destructive, block by block. -/
theorem filter_plan_isSafe (target current : Table) :
    (target.plan current).filter Statement.isSafe = target.conversion current
      ++ ((target.columnPairing current).pairs.flatMap fun pair =>
        [.changeColumn target.name pair.1.1 pair.2.2])
      ++ []
      ++ (target.columnPairing current).new.flatMap target.addColumnStatements
      ++ (target.columns.common current.columns).flatMap
        fun pair => (target.sharedColumnStatements pair).filter Statement.isSafe := by
  have hconversion : (target.conversion current).filter Statement.isSafe
      = target.conversion current := by
    unfold conversion
    split <;> rfl
  have hrename : (target.columnPairing current).pairs.filter (Statement.isSafe ∘ fun pair =>
      .changeColumn target.name pair.1.1 pair.2.2) = (target.columnPairing current).pairs :=
    List.filter_eq_self.2 fun _ _ => rfl
  have hdrop : ∀ gone : String × Column,
      (target.dropColumnStatements current gone).filter Statement.isSafe = [] := by
    intro gone
    unfold dropColumnStatements
    cases gone.2.columnKey <;> rfl
  have hadd : ∀ new : String × Column, (target.addColumnStatements new).filter Statement.isSafe
      = target.addColumnStatements new := by
    intro new
    unfold addColumnStatements
    cases new.2.columnKey <;> rfl
  simp only [plan, List.filter_append, List.filter_map, List.filter_flatMap,
    hconversion, hrename, hdrop, hadd, flatMap_const_nil, ← List.map_eq_flatMap]

/-- What is safe for a column on both sides leaves its name alone. -/
theorem establishes_safe_shared (target : Table) (c d : Column) :
    Establishes nameColumns.rules
      ((target.sharedColumnStatements (c, d)).filter Statement.isSafe) [c.name]
      (fun _ => some ()) fun _ => some () := by
  refine .stay_of_forall fun s hs => ?_
  obtain ⟨hmem, hsafe⟩ := List.mem_filter.1 hs
  rcases mem_sharedColumnStatements hmem with h | rfl
  · rcases mem_keyTransition h with ⟨kind, rfl, -⟩ | ⟨kind, rfl, -⟩ | ⟨rfl, -⟩ | ⟨rfl, -⟩
    · exact ColumnModel.establishes_addIndex
    · exact nomatch hsafe
    · exact ColumnModel.establishes_addPrimaryKey
    · exact nomatch hsafe
  · exact ColumnModel.establishes_redefine

theorem not_mem_gone_of_mem_keys {column : String} (h : column ∈ target.columns.keys) :
    column ∉ (target.columnPairing current).gone.map (·.1) :=
  fun hgone => (mem_keys_gone_iff.1 hgone).1.2 h

/-- The columns that would be dropped are left where they are. -/
theorem establishes_safe_gone (target current : Table) :
    Establishes nameColumns.rules [] ((target.columnPairing current).gone.map (·.1))
      (nameColumns.view current).get? (target.keptNames current).get? := by
  refine Establishes.stay.congr (fun _ _ => rfl) fun key hkey => ?_
  obtain ⟨d, hd⟩ := Keyed.mem_keys_iff.1 (mem_keys_gone_iff.1 hkey).1.1
  rw [get?_keptNames_of_mem hkey, ColumnModel.get?_view, hd]
  rfl

theorem establishes_safe_common (htarget : target.WellFormed) :
    Establishes nameColumns.rules
      ((target.columns.common current.columns).flatMap
        fun pair => (target.sharedColumnStatements pair).filter Statement.isSafe)
      (target.columns.keys.filter current.columns.contains) (nameColumns.view current).get?
      (target.keptNames current).get? := by
  refine Establishes.flatMap_common Column.name htarget.column_name fun {c d} hc hd => ?_
  refine (establishes_safe_shared target c d).congr_single ?_ ?_
  · rw [ColumnModel.get?_view, hd]
    rfl
  · rw [get?_keptNames_of_not_mem (not_mem_gone_of_mem_keys (Keyed.mem_keys_of_get? hc)),
      get?_columnNames hc]

/-- The safe part of the plan of a table leads to the names of the target and to
those of the columns that would be dropped. -/
theorem run_safe_plan (htarget : target.WellFormed) (hcurrent : current.WellFormed) :
    run nameColumns.step ((target.plan current).filter Statement.isSafe) current.columns.names
      = some (target.keptNames current) := by
  have hfits := nameColumns_fits target current
  have hpairing := target.columnPairing_nodup current
  -- off the columns that would be dropped the names are those of the full plan
  have hrenamed := (ColumnModel.establishes_renamed htarget hfits).congr (fun _ _ => rfl)
    fun key hkey => get?_keptNames_of_not_mem (Pairing.not_mem_gone hpairing hkey)
  have hnew : ∀ key ∈ (target.columnPairing current).new.map (·.1),
      key ∉ (target.columnPairing current).gone.map (·.1) := by
    intro key hkey
    obtain ⟨new, hnew, rfl⟩ := List.mem_map.1 hkey
    exact not_mem_gone_of_mem_keys (Keyed.mem_keys_of_get? (lookups_of_mem_new hnew).1)
  have hadded := (ColumnModel.establishes_added htarget hfits).congr (fun _ _ => rfl)
    fun key hkey => get?_keptNames_of_not_mem (hnew key hkey)
  have hfirst := (ColumnModel.establishes_conversion (m := nameColumns) target current
    (nameColumns.view current).get? (target.keptNames current).get?).append
    (Pairing.nodup_parts hpairing).1 hrenamed
  have hblocks := Establishes.append_append (target.planKeys_nodup current) hfirst
    (establishes_safe_gone target current) hadded (establishes_safe_common htarget)
  rw [filter_plan_isSafe]
  refine (hblocks.run_eq (ColumnModel.onePrimary_view hcurrent) (guarded_nameColumns _ _)
    fun key hkey => ?_).1
  have hnot := mt mem_planKeys.2 hkey
  rw [not_or] at hnot
  rw [get?_keptNames_of_not_mem fun hgone => hnot.2 (mem_keys_gone_iff.1 hgone).1.1,
    hfits.absent hnot.1, ColumnModel.get?_view, Keyed.get?_eq_none_iff.2 hnot.2]
  rfl

end Table

/-! ## The tables of a schema -/

namespace Schema

/-- The names once the safe part of a plan is done. -/
def keptNames (target current : Schema) : Names :=
  (target.tables.mapValues fun name t =>
      ((current.tables.get? name).map t.keptNames).getD t.columns.names).insertAll
    ((target.tablePairing current).gone.map fun gone => (gone.1, gone.2.columns.names))

variable {target current : Schema} {table : String}

theorem hasTable_keptNames : (target.keptNames current).HasTable table ↔
    table ∈ (target.tablePairing current).gone.map (·.1) ∨ table ∈ target.tables.keys := by
  rw [Names.HasTable, keptNames, Keyed.contains_insertAll, List.map_map, Keyed.keys_mapValues]
  rfl

theorem get?_keptNames_of_not_mem
    (h : table ∉ (target.tablePairing current).gone.map (·.1)) :
    (target.keptNames current).get? table = (target.tables.get? table).map fun t =>
      ((current.tables.get? table).map t.keptNames).getD t.columns.names := by
  rw [keptNames, Keyed.get?_insertAll_of_not_mem (by rwa [List.map_map]), Keyed.get?_mapValues]

/-- A table that would be dropped stays with its columns. -/
theorem get?_keptNames_of_mem {gone : String × Table}
    (h : gone ∈ (target.tablePairing current).gone) :
    (target.keptNames current).get? gone.1 = some gone.2.columns.names := by
  refine Keyed.get?_insertAll_of_mem ?_ (List.mem_map.2 ⟨gone, h, rfl⟩)
  rw [List.map_map]
  exact (Pairing.nodup_parts (target.tablePairing_nodup current)).2.1

theorem not_mem_gone_of_mem_keys (h : table ∈ target.tables.keys) :
    table ∉ (target.tablePairing current).gone.map (·.1) :=
  fun hgone => (mem_keys_gone_iff.1 hgone).1.2 h

/-- A table on both sides keeps the columns that would be dropped. -/
theorem get?_keptNames_of_shared {t u : Table} (ht : target.tables.get? table = some t)
    (hu : current.tables.get? table = some u) :
    (target.keptNames current).get? table = some (t.keptNames u) := by
  rw [get?_keptNames_of_not_mem (not_mem_gone_of_mem_keys (Keyed.mem_keys_of_get? ht)), ht, hu]
  rfl

/-- Where there is no table on the current side to begin with, the names are those
of the target. -/
theorem get?_keptNames_of_get?_none (h : current.tables.get? table = none) :
    (target.keptNames current).get? table = target.names.get? table := by
  have hgone : table ∉ (target.tablePairing current).gone.map (·.1) := by
    intro hgone
    exact Keyed.get?_eq_none_iff.1 h (mem_keys_gone_iff.1 hgone).1.1
  rw [get?_keptNames_of_not_mem hgone, h, names, Keyed.get?_mapValues]
  rfl

/-- The plan of a schema without what is destructive, block by block. -/
theorem safePlan_eq (target current : Schema) (database : String) :
    target.safePlan current database = target.defaultsStatement current database
      ++ (target.tables.common current.tables).flatMap
        (fun pair => (pair.1.plan pair.2).filter Statement.isSafe)
      ++ (target.tablePairing current).pairs.flatMap
        (fun pair => [.renameTable pair.1.1 pair.2.1])
      ++ []
      ++ (target.tablePairing current).new.flatMap fun new => new.2.creation := by
  have hdefaults : (target.defaultsStatement current database).filter Statement.isSafe
      = target.defaultsStatement current database := by
    unfold defaultsStatement
    split <;> rfl
  have hrename : (target.tablePairing current).pairs.filter (Statement.isSafe ∘ fun pair =>
      .renameTable pair.1.1 pair.2.1) = (target.tablePairing current).pairs :=
    List.filter_eq_self.2 fun _ _ => rfl
  have hdrop : (target.tablePairing current).gone.filter (Statement.isSafe ∘ fun gone =>
      .dropTable gone.1) = [] :=
    List.filter_eq_nil_iff.2 fun _ _ => Bool.false_ne_true
  have hcreate : ∀ t : Table, t.creation.filter Statement.isSafe = t.creation := by
    refine fun t => List.filter_eq_self.2 fun s hs => ?_
    rcases List.mem_cons.1 (t.creation_eq ▸ hs) with rfl | hs
    · rfl
    · obtain ⟨kind, column, rfl⟩ := Table.mem_indexes hs
      rfl
  simp only [safePlan, plan, List.filter_append, List.filter_map, List.filter_flatMap,
    hdefaults, hrename, hdrop, hcreate, List.map_nil, ← List.map_eq_flatMap]

/-- The tables of a pair are named as the full plan leaves them. -/
theorem get?_keptNames_of_mem_pairs
    (h : table ∈ (target.tablePairing current).pairs.flatMap fun p => [p.1.1, p.2.1]) :
    (target.keptNames current).get? table = target.names.get? table := by
  have hgone := Pairing.not_mem_gone (target.tablePairing_nodup current) h
  obtain ⟨pair, hpair, hkey⟩ := List.mem_flatMap.1 h
  obtain ⟨⟨-, hnot⟩, -, hfree⟩ := lookups_of_mem_pairs hpair
  rcases List.mem_pair.1 hkey with rfl | rfl
  · rw [get?_keptNames_of_not_mem hgone, names, Keyed.get?_mapValues, hnot]
    rfl
  · exact get?_keptNames_of_get?_none hfree

/-- The tables that would be dropped are left where they are. -/
theorem establishes_safe_gone (target current : Schema) :
    Establishes nameTables.rules [] ((target.tablePairing current).gone.map (·.1))
      (nameTables.view current).get? (target.keptNames current).get? := by
  refine Establishes.stay.congr (fun _ _ => rfl) fun key hkey => ?_
  obtain ⟨gone, hgone, rfl⟩ := List.mem_map.1 hkey
  rw [get?_keptNames_of_mem hgone, TableModel.get?_view, (lookups_of_mem_gone hgone).1]
  rfl

theorem establishes_safe_common (htarget : target.WellFormed) (hcurrent : current.WellFormed) :
    Establishes nameTables.rules
      ((target.tables.common current.tables).flatMap
        fun pair => (pair.1.plan pair.2).filter Statement.isSafe)
      (target.tables.keys.filter current.tables.contains) (nameTables.view current).get?
      (target.keptNames current).get? := by
  refine Establishes.flatMap_common Table.name htarget.table_name fun {t u} ht hu => ?_
  have hblock : ∀ s ∈ (t.plan u).filter Statement.isSafe, s.alters? = some t.name :=
    fun s hs => Table.alters_of_mem_plan (hcurrent.table_name hu) (List.mem_filter.1 hs).1
  have hrun := Table.run_safe_plan (htarget.table ht) (hcurrent.table hu)
  refine (TableModel.establishes_alter (m := nameTables) (v := u.columns.names)
    (w := t.keptNames u) hblock fun _ _ => ⟨hrun, trivial⟩).congr_single ?_
    (get?_keptNames_of_shared ht hu)
  rw [TableModel.get?_view, hu]
  rfl

/-- The safe part of a plan leads to the names of the target and to those that would
be dropped. -/
theorem replay_safePlan (htarget : target.WellFormed) (hcurrent : current.WellFormed)
    (database : String) :
    current.names.replay (target.safePlan current database)
      = some (target.keptNames current) := by
  have hfits := nameTables_fits htarget hcurrent
  have hfirst := (TableModel.establishes_defaults (m := nameTables) target current database
    (nameTables.view current).get? (target.keptNames current).get?).append
    (target.tables.keys_nodup.filter _) (establishes_safe_common htarget hcurrent)
  have hrenamed := (TableModel.establishes_renamed hfits).congr (fun _ _ => rfl)
    fun key hkey => get?_keptNames_of_mem_pairs hkey
  have hnew : ∀ key ∈ (target.tablePairing current).new.map (·.1),
      current.tables.get? key = none := by
    intro key hkey
    obtain ⟨new, hnew, rfl⟩ := List.mem_map.1 hkey
    exact (lookups_of_mem_new hnew).2
  have hcreated := (TableModel.establishes_created htarget hfits).congr (fun _ _ => rfl)
    fun key hkey => get?_keptNames_of_get?_none (hnew key hkey)
  have hblocks := Establishes.append_append (target.planKeys_nodup current) hfirst hrenamed
    (establishes_safe_gone target current) hcreated
  rw [safePlan_eq]
  refine (hblocks.run_eq (fun _ _ _ => trivial) (guarded_of_forall
    (fun _ _ _ _ _ _ _ => trivial) _) fun key hkey => ?_).1
  have hnot := mt mem_planKeys.2 hkey
  rw [not_or] at hnot
  rw [get?_keptNames_of_not_mem fun hgone => hnot.2 (mem_keys_gone_iff.1 hgone).1.1,
    TableModel.get?_view, Keyed.get?_eq_none_iff.2 hnot.1, Keyed.get?_eq_none_iff.2 hnot.2]
  rfl

end Schema

/-! ## Nothing is lost -/

/-- Statements give a table another name. -/
def RenamesTable (statements : List Statement) (old new : String) : Prop :=
  .renameTable old new ∈ statements

/-- Statements give a column of a table another name. -/
def RenamesColumn (statements : List Statement) (table old new : String) : Prop :=
  new ≠ old ∧ ∃ c : Column, c.name = new ∧ .changeColumn table old c ∈ statements

/-- The last names are those of the target and those of the current side that no
statement renamed; and a name of the current side is still there, or went over into
another that is there. -/
structure KeepsNames (target current : Schema) (statements : List Statement) (last : Names) :
    Prop where
  tables : ∀ {table : String}, last.HasTable table ↔ target.names.HasTable table ∨
    (current.names.HasTable table ∧ ¬ target.names.HasTable table ∧
      ∀ new, ¬ RenamesTable statements table new)
  columns : ∀ {table column : String}, target.names.HasTable table →
    current.names.HasTable table → (last.HasColumn table column ↔
      target.names.HasColumn table column ∨
        (current.names.HasColumn table column ∧ ¬ target.names.HasColumn table column ∧
          ∀ new, ¬ RenamesColumn statements table column new))
  table_stays : ∀ {table : String}, current.names.HasTable table → last.HasTable table ∨
    ∃ new, RenamesTable statements table new ∧ last.HasTable new
  column_stays : ∀ {table column : String}, current.names.HasColumn table column →
    last.HasColumn table column ∨
      (∃ new, RenamesColumn statements table column new ∧ last.HasColumn table new) ∨
      ∃ new, RenamesTable statements table new ∧ last.HasColumn new column

/-- No pair has a name as its old one, told by the list of the old names. -/
theorem forall_not_exists_pair_iff {α : Type} {pairs : List α} {old new : α → String}
    {name : String} : (∀ other, ¬ ∃ pair ∈ pairs, old pair = name ∧ new pair = other) ↔
      name ∉ pairs.map old := by
  simp only [List.mem_map, not_exists, not_and]
  constructor
  · intro h pair hpair hname
    exact h _ pair hpair hname rfl
  · intro h other pair hpair hname _
    exact h pair hpair hname

namespace Schema

variable {target current : Schema} {database table column new : String} {t u : Table}

/-- The safe part of a plan renames the tables that are paired. -/
theorem renamesTable_safePlan_iff (htarget : target.WellFormed)
    (hcurrent : current.WellFormed) :
    RenamesTable (target.safePlan current database) table new ↔
      ∃ pair ∈ (target.tablePairing current).pairs, pair.1.1 = table ∧ pair.2.1 = new := by
  rw [RenamesTable, safePlan, List.mem_filter, renameTable_mem_plan_iff htarget hcurrent]
  exact and_iff_left rfl

theorem forall_not_renamesTable_iff (htarget : target.WellFormed)
    (hcurrent : current.WellFormed) :
    (∀ new, ¬ RenamesTable (target.safePlan current database) table new) ↔
      table ∉ (target.tablePairing current).pairs.map (·.1.1) := by
  simp only [renamesTable_safePlan_iff htarget hcurrent]
  exact forall_not_exists_pair_iff

/-- The safe part of a plan renames the columns that are paired in tables on both
sides. -/
theorem renamesColumn_safePlan_iff (htarget : target.WellFormed) (hcurrent : current.WellFormed)
    (ht : target.tables.get? table = some t) (hu : current.tables.get? table = some u) :
    RenamesColumn (target.safePlan current database) table column new ↔
      ∃ pair ∈ (t.columnPairing u).pairs, pair.1.1 = column ∧ pair.2.1 = new := by
  have hmem : ∀ c, .changeColumn table column c ∈ target.safePlan current database ↔
      .changeColumn t.name column c ∈ t.plan u := by
    intro c
    rw [← filter_plan htarget hcurrent database ht hu, htarget.table_name ht, List.mem_filter,
      safePlan, List.mem_filter]
    exact and_congr_right fun _ => ⟨fun _ => decide_eq_true rfl, fun _ => rfl⟩
  constructor
  · rintro ⟨hne, c, rfl, hc⟩
    obtain ⟨pair, hpair, hold, rfl⟩ := (Table.changeColumn_mem_plan_iff hne).1 ((hmem c).1 hc)
    exact ⟨pair, hpair, hold,
      (Table.name_ne_of_mem_columnPairing (htarget.table ht) hpair).1.symm⟩
  · rintro ⟨pair, hpair, rfl, rfl⟩
    obtain ⟨hname, hne⟩ := Table.name_ne_of_mem_columnPairing (htarget.table ht) hpair
    exact ⟨hname ▸ hne, pair.2.2, hname, (hmem _).2 (Table.changeColumn_mem_plan hpair)⟩

theorem forall_not_renamesColumn_iff (htarget : target.WellFormed)
    (hcurrent : current.WellFormed) (ht : target.tables.get? table = some t)
    (hu : current.tables.get? table = some u) :
    (∀ new, ¬ RenamesColumn (target.safePlan current database) table column new) ↔
      column ∉ (t.columnPairing u).pairs.map (·.1.1) := by
  simp only [renamesColumn_safePlan_iff htarget hcurrent ht hu]
  exact forall_not_exists_pair_iff

end Schema

section Kept

variable {target current : Schema} {table column : String} {u : Table}

/-- A table stays, or goes over into the one that it is paired with. -/
theorem table_stays_safePlan (htarget : target.WellFormed) (hcurrent : current.WellFormed)
    (database : String) (h : table ∈ current.tables.keys) :
    (target.keptNames current).HasTable table ∨
      ∃ new, RenamesTable (target.safePlan current database) table new ∧
        (target.keptNames current).HasTable new := by
  rw [Schema.hasTable_keptNames]
  by_cases htable : table ∈ target.tables.keys
  · exact .inl (.inr htable)
  · rcases Schema.renamed_or_gone h htable with ⟨pair, hpair, rfl⟩ | hgone
    · have hthere := Keyed.mem_keys_of_get? (lookups_of_mem_pairs hpair).2.1
      exact .inr ⟨pair.2.1, (Schema.renamesTable_safePlan_iff htarget hcurrent).2
        ⟨pair, hpair, rfl, rfl⟩, Schema.hasTable_keptNames.2 (.inr hthere)⟩
    · exact .inl (.inl hgone)

/-- A column of a table on both sides stays, or goes over into the one that it is
paired with. -/
theorem column_stays_of_shared (htarget : target.WellFormed) (hcurrent : current.WellFormed)
    (database : String) {t : Table} (ht : target.tables.get? table = some t)
    (hu : current.tables.get? table = some u) (h : column ∈ u.columns.keys) :
    (target.keptNames current).HasColumn table column ∨
      ∃ new, RenamesColumn (target.safePlan current database) table column new ∧
        (target.keptNames current).HasColumn table new := by
  have hkept := Schema.get?_keptNames_of_shared ht hu
  simp only [Names.hasColumn_iff_of_get? hkept, Table.contains_keptNames]
  by_cases hcolumn : column ∈ t.columns.keys
  · exact .inl (.inr hcolumn)
  · rcases Table.renamed_or_gone h hcolumn with ⟨pair, hpair, rfl⟩ | hgone
    · have hthere := Keyed.mem_keys_of_get? (lookups_of_mem_pairs hpair).2.1
      exact .inr ⟨pair.2.1, (Schema.renamesColumn_safePlan_iff htarget hcurrent ht hu).2
        ⟨pair, hpair, rfl, rfl⟩, .inr hthere⟩
    · exact .inl (.inl hgone)

/-- A column of a table that only the current side has stays in it, or goes with it
under the name of the table that it is paired with. -/
theorem column_stays_of_not_shared (htarget : target.WellFormed) (hcurrent : current.WellFormed)
    (database : String) (ht : target.tables.get? table = none)
    (hu : current.tables.get? table = some u) (h : column ∈ u.columns.keys) :
    (target.keptNames current).HasColumn table column ∨
      ∃ new, RenamesTable (target.safePlan current database) table new ∧
        (target.keptNames current).HasColumn new column := by
  rcases Schema.renamed_or_gone (Keyed.mem_keys_of_get? hu) (Keyed.get?_eq_none_iff.1 ht) with
    ⟨⟨gone, new⟩, hpair, rfl⟩ | hgone
  · obtain ⟨⟨hold, -⟩, hthere, hfree⟩ := lookups_of_mem_pairs hpair
    obtain rfl := Option.some.inj (hu.symm.trans hold)
    have hkept := (Schema.get?_keptNames_of_get?_none hfree).trans (get?_schemaNames hthere)
    refine .inr ⟨new.1, (Schema.renamesTable_safePlan_iff htarget hcurrent).2
      ⟨(gone, new), hpair, rfl, rfl⟩, ?_⟩
    rwa [Names.hasColumn_iff_of_get? hkept, Keyed.contains_names,
      Schema.keys_eq_of_mem_tablePairing hpair]
  · obtain ⟨gone, hmem, rfl⟩ := List.mem_map.1 hgone
    obtain rfl := Option.some.inj (hu.symm.trans (lookups_of_mem_gone hmem).1)
    refine .inl ?_
    rwa [Names.hasColumn_iff_of_get? (Schema.get?_keptNames_of_mem hmem), Keyed.contains_names]

end Kept

/-- The safe part of a plan keeps the names of both sides. -/
theorem keepsNames_safePlan {target current : Schema} (htarget : target.WellFormed)
    (hcurrent : current.WellFormed) (database : String) :
    KeepsNames target current (target.safePlan current database)
      (target.keptNames current) where
  tables {table} := by
    rw [Schema.hasTable_keptNames, Schema.forall_not_renamesTable_iff htarget hcurrent,
      Names.hasTable_names, Names.hasTable_names, ← and_assoc, or_comm]
    exact or_congr_right mem_keys_gone_iff
  columns {table column} ht hu := by
    obtain ⟨t, ht⟩ := Keyed.mem_keys_iff.1 (Names.hasTable_names.1 ht)
    obtain ⟨u, hu⟩ := Keyed.mem_keys_iff.1 (Names.hasTable_names.1 hu)
    rw [Names.hasColumn_iff_of_get? (Schema.get?_keptNames_of_shared ht hu),
      Names.hasColumn_iff_of_get? (get?_schemaNames ht),
      Names.hasColumn_iff_of_get? (get?_schemaNames hu), Table.contains_keptNames,
      Keyed.contains_names, Keyed.contains_names,
      Schema.forall_not_renamesColumn_iff htarget hcurrent ht hu, ← and_assoc, or_comm]
    exact or_congr_right mem_keys_gone_iff
  table_stays h := table_stays_safePlan htarget hcurrent database (Names.hasTable_names.1 h)
  column_stays {table column} h := by
    obtain ⟨u, hu, hcolumn⟩ := Names.hasColumn_names.1 h
    cases ht : target.tables.get? table with
    | some t =>
      exact (column_stays_of_shared htarget hcurrent database ht hu hcolumn).imp_right .inl
    | none =>
      exact (column_stays_of_not_shared htarget hcurrent database ht hu hcolumn).imp_right .inr

/-- What a comparison does in safe mode: it sends the safe part of the plan; each
statement of it is applicable when it is reached; and the names that it leads to
keep those of both sides. -/
structure AppliesSafely (target current : Schema) (database : String)
    (comparison : Comparison) : Prop where
  sends : comparison.SendsInSafeMode (target.safePlan current database)
  applicable : ∀ {before after : List Statement} {s : Statement},
    target.safePlan current database = before ++ s :: after →
      ∃ reached, current.names.replay before = some reached ∧ reached.Applicable s
  leads : ∃ last, current.names.replay (target.safePlan current database) = some last ∧
    KeepsNames target current (target.safePlan current database) last

/-- Between two valid schemas there is a comparison, and in safe mode it loses
nothing and stays applicable. -/
theorem diff_safe_mode {target current : Schema} (htarget : target.validate = .ok ())
    (hcurrent : current.validate = .ok ()) (database : String) :
    ∃ comparison, target.diff current database = .ok comparison ∧
      AppliesSafely target current database comparison := by
  have htarget' := (Schema.validate_eq_ok_iff target).1 htarget
  have hcurrent' := (Schema.validate_eq_ok_iff current).1 hcurrent
  have hreplay := Schema.replay_safePlan htarget' hcurrent' database
  refine ⟨_, Schema.diff_of_wellFormed htarget' hcurrent' database,
    Comparison.sendsInSafeMode_ofStatements _ _, fun heq => ?_, _, hreplay,
    keepsNames_safePlan htarget' hcurrent' database⟩
  rw [heq] at hreplay
  exact Names.applicable_of_replay hreplay

/-- A clinic: bills, doctors and patients. -/
def clinic : Schema where
  tables := .ofList [
    ("bill", { name := "bill", columns := .ofList [
      ("total", { name := "total", dataType := "int" })] }),
    ("doctor", { name := "doctor", columns := .ofList [
      ("name", { name := "name", dataType := "varchar" })] }),
    ("patient", { name := "patient", columns := .ofList [
      ("born", { name := "born", dataType := "date" }),
      ("code", { name := "code", dataType := "int", columnKey := .unique }),
      ("note", { name := "note", dataType := "text" })] })]

/-- The clinic without bills and notes, with another index, and with a column and a
table renamed. -/
def nextClinic : Schema where
  tables := .ofList [
    ("patient", { name := "patient", columns := .ofList [
      ("birthday", { name := "birthday", dataType := "date" }),
      ("code", { name := "code", dataType := "int", columnKey := .multiple })] }),
    ("physician", { name := "physician", columns := .ofList [
      ("name", { name := "name", dataType := "varchar" })] }),
    ("ward", { name := "ward", columns := .ofList [
      ("beds", { name := "beds", dataType := "int" })] })]

theorem diff_safe_mode_clinic :
    (nextClinic.validate = .ok () ∧ clinic.validate = .ok ()) ∧
      (nextClinic.safePlan clinic "clinic").map Statement.kind
        = [.changeColumn, .addIndex, .renameTable, .createTable] ∧
      ∃ comparison, nextClinic.diff clinic "clinic" = .ok comparison ∧
        AppliesSafely nextClinic clinic "clinic" comparison :=
  ⟨by decide +kernel, by decide +kernel,
    diff_safe_mode (by decide +kernel) (by decide +kernel) "clinic"⟩

end SchemaPlan
