import SchemaPlan.Proofs.SharedTables
import SchemaPlan.Proofs.Soundness
set_option autoImplicit false

/-!
# What is left of a table

The columns of a table that go are dropped before the new ones are added, so a table may
lose all its columns on the way.  The columns that are not dropped carry it through:
every statement leaves one of them if there was one before.  There is one exactly if the
two sides of the table share a column by name or by type (`diff_keeps_columns`).
-/

namespace SchemaPlan

open Replay

/-! ## Statements that spare columns -/

/-- A statement drops none of the columns that are kept, and renames them among
themselves. -/
def Statement.Spares (kept : String → Prop) : Statement → Prop
  | .dropColumn _ column => ¬ kept column
  | .changeColumn _ old c => kept old → kept c.name
  | _ => True

/-- One of the columns that are kept is there. -/
def LeavesOne (kept : String → Prop) (columns : Keyed Unit) : Prop :=
  ∃ column, kept column ∧ columns.get? column = some ()

namespace LeavesOne

variable {kept : String → Prop} {columns next : Keyed Unit}

theorem insert (h : LeavesOne kept columns) (column : String) :
    LeavesOne kept (columns.insert column ()) := by
  obtain ⟨other, hother, hthere⟩ := h
  refine ⟨other, hother, ?_⟩
  rw [Keyed.get?_insert]
  split
  · rfl
  · exact hthere

theorem erase (h : LeavesOne kept columns) {column : String} (hnot : ¬ kept column) :
    LeavesOne kept (columns.erase column) := by
  obtain ⟨other, hother, hthere⟩ := h
  have hne : other ≠ column := fun heq => hnot (heq ▸ hother)
  exact ⟨other, hother, (Keyed.get?_erase_of_ne columns hne).trans hthere⟩

theorem move (h : LeavesOne kept columns) {old new : String} (hmove : kept old → kept new) :
    LeavesOne kept ((columns.erase old).insert new ()) := by
  by_cases hold : kept old
  · exact ⟨new, hmove hold, Keyed.get?_insert_self _ _ _⟩
  · exact (h.erase hold).insert new

theorem rekey (h : LeavesOne kept columns) {column : String} {key : ColumnKey}
    (hrekey : nameColumns.rekey column key columns = some next) : LeavesOne kept next := by
  obtain ⟨_, -, rfl⟩ := Option.map_eq_some_iff.1 hrekey
  exact h.insert column

/-- A statement that spares the columns that are kept leaves one of them. -/
theorem step (h : LeavesOne kept columns) {s : Statement} (hs : s.Spares kept)
    (hstep : nameColumns.step s columns = some next) : LeavesOne kept next := by
  cases s with
  | addColumn table c =>
    rw [ColumnModel.step, Option.ite_none_left_eq_some] at hstep
    obtain rfl := Option.some.inj hstep.2
    exact h.insert c.name
  | dropColumn table column =>
    rw [ColumnModel.step, Option.ite_none_right_eq_some] at hstep
    obtain rfl := Option.some.inj hstep.2
    exact h.erase hs
  | changeColumn table old c =>
    obtain ⟨_, -, hstep⟩ := Option.bind_eq_some_iff.1 hstep
    rw [Option.ite_none_left_eq_some] at hstep
    obtain rfl := Option.some.inj hstep.2
    exact h.move hs
  | addIndex kind table column => exact h.rekey hstep
  | dropIndex kind table column => exact h.rekey hstep
  | addPrimaryKey table column => exact h.rekey hstep
  | dropPrimaryKey table =>
    obtain rfl := Option.some.inj hstep
    exact (Keyed.mapValues_id columns).symm ▸ h
  | _ =>
    obtain rfl := Option.some.inj hstep
    exact h

end LeavesOne

/-- What does not name a table leaves what a replay keeps of it. -/
theorem Replay.TableModel.get?_step {σ : Type} {m : TableModel σ} {s : Statement} {key : String}
    {tables next : Keyed σ} (h : key ∉ s.tables) (hstep : m.step s tables = some next) :
    next.get? key = tables.get? key := by
  cases halters : s.alters? with
  | some table =>
    rw [Statement.tables_of_alters halters, List.mem_singleton] at h
    rw [TableModel.step_of_alters halters] at hstep
    obtain ⟨v, -, hstep⟩ := Option.bind_eq_some_iff.1 hstep
    obtain ⟨w, -, rfl⟩ := Option.map_eq_some_iff.1 hstep
    exact Keyed.get?_insert_of_ne _ _ h
  | none =>
    cases s with
    | alterDatabase =>
      obtain rfl := Option.some.inj hstep
      rfl
    | createTable t =>
      rw [TableModel.step, Option.ite_none_left_eq_some] at hstep
      obtain rfl := Option.some.inj hstep.2
      exact Keyed.get?_insert_of_ne _ _ fun heq => h (List.mem_singleton.2 heq)
    | dropTable table =>
      rw [TableModel.step, Option.ite_none_right_eq_some] at hstep
      obtain rfl := Option.some.inj hstep.2
      exact Keyed.get?_erase_of_ne _ fun heq => h (List.mem_singleton.2 heq)
    | renameTable old new =>
      obtain ⟨v, -, hstep⟩ := Option.bind_eq_some_iff.1 hstep
      rw [Option.ite_none_left_eq_some] at hstep
      obtain rfl := Option.some.inj hstep.2
      have hne : key ≠ new := fun heq => h (List.mem_pair.2 (.inr heq))
      have hne' : key ≠ old := fun heq => h (List.mem_pair.2 (.inl heq))
      rw [Keyed.get?_insert_of_ne _ _ hne, Keyed.get?_erase_of_ne _ hne']
    | _ => exact absurd halters (Option.some_ne_none _)

theorem Replay.TableModel.get?_run {σ : Type} {m : TableModel σ} {statements : List Statement}
    {key : String} {tables last : Keyed σ} (h : ∀ s ∈ statements, key ∉ s.tables)
    (hrun : run m.step statements tables = some last) : last.get? key = tables.get? key := by
  induction statements generalizing tables with
  | nil => rw [Option.some.inj hrun]
  | cons s rest ih =>
    obtain ⟨next, hnext, hrun⟩ := Option.bind_eq_some_iff.1 hrun
    obtain ⟨hs, hrest⟩ := List.forall_mem_cons.1 h
    exact (ih hrest hrun).trans (get?_step hs hnext)

namespace Names

variable {kept : String → Prop} {names next last : Names} {table : String}

/-- A table is there with one of the columns that are kept. -/
def LeavesColumn (names : Names) (table : String) (kept : String → Prop) : Prop :=
  ∃ columns, names.get? table = some columns ∧ LeavesOne kept columns

/-- A statement leaves a kept column in a table unless it is about the table itself or
does not spare its columns. -/
theorem LeavesColumn.step {s : Statement} (h : names.LeavesColumn table kept)
    (hs : table ∈ s.tables → s.alters? = some table ∧ s.Spares kept)
    (hstep : Names.step s names = some next) : next.LeavesColumn table kept := by
  obtain ⟨columns, hget, hleaves⟩ := h
  by_cases hnames : table ∈ s.tables
  · obtain ⟨halters, hspares⟩ := hs hnames
    rw [Names.step, TableModel.step_of_alters halters, hget, Option.bind_some] at hstep
    obtain ⟨columns', hcolumns, rfl⟩ := Option.map_eq_some_iff.1 hstep
    exact ⟨columns', Keyed.get?_insert_self _ _ _, hleaves.step hspares hcolumns⟩
  · exact ⟨columns, (TableModel.get?_step hnames hstep).trans hget, hleaves⟩

theorem LeavesColumn.replay {statements : List Statement} (h : names.LeavesColumn table kept)
    (hs : ∀ s ∈ statements, table ∈ s.tables → s.alters? = some table ∧ s.Spares kept)
    (hreplay : names.replay statements = some last) : last.LeavesColumn table kept := by
  induction statements generalizing names with
  | nil =>
    obtain rfl := Option.some.inj hreplay
    exact h
  | cons s rest ih =>
    obtain ⟨next, hnext, hrest⟩ := Option.bind_eq_some_iff.1 hreplay
    obtain ⟨hfirst, hothers⟩ := List.forall_mem_cons.1 hs
    exact ih (h.step hfirst hnext) hothers hrest

end Names

/-! ## Columns that are not dropped -/

namespace Table

/-- A plan drops a column: only the current side has it, and it is not renamed. -/
def Drops (target current : Table) (column : String) : Prop :=
  column ∈ (target.columnPairing current).gone.map (·.1)

/-- The two sides of a table have a column of one name, or columns of one type. -/
def SharesColumn (target current : Table) : Prop :=
  (∃ column, column ∈ target.columns.keys ∧ column ∈ current.columns.keys) ∨
    ∃ a b c d, target.columns.get? a = some c ∧ current.columns.get? b = some d ∧
      c.type? = d.type?

variable {target current : Table}

theorem not_drops_of_mem_keys {column : String} (h : column ∈ target.columns.keys) :
    ¬ target.Drops current column := by
  intro hdrops
  obtain ⟨gone, hgone, rfl⟩ := List.mem_map.1 hdrops
  exact Keyed.get?_eq_none_iff.1 (lookups_of_mem_gone hgone).2 h

/-- A column that only the target has comes by renaming or alone. -/
theorem renamed_or_new {column : String} (htarget : column ∈ target.columns.keys)
    (hcurrent : column ∉ current.columns.keys) :
    (∃ pair ∈ (target.columnPairing current).pairs, pair.2.1 = column) ∨
      column ∈ (target.columnPairing current).new.map (·.1) := by
  rcases List.mem_append.1 (listsOnce_new.mem_iff.2 ⟨htarget, hcurrent⟩) with hpair | hnew
  · exact .inl (List.mem_map.1 hpair)
  · exact .inr hnew

theorem not_drops_of_mem_pairs {pair : (String × Column) × (String × Column)}
    (h : pair ∈ (target.columnPairing current).pairs) : ¬ target.Drops current pair.1.1 :=
  Pairing.not_mem_gone (target.columnPairing_nodup current)
    (List.mem_flatMap.2 ⟨pair, h, List.mem_cons_self⟩)

/-- The plan of a table spares the columns that it does not drop. -/
theorem spares_of_mem_plan (htarget : target.WellFormed) {s : Statement}
    (h : s ∈ target.plan current) : s.Spares fun column => ¬ target.Drops current column := by
  cases plans_of_mem h with
  | drops hgone => exact not_not_intro (List.mem_map_of_mem hgone)
  | renames hpair =>
    have hnew := (lookups_of_mem_pairs hpair).2.1
    rw [Statement.Spares, htarget.column_name hnew]
    exact fun _ => not_drops_of_mem_keys (Keyed.mem_keys_of_get? hnew)
  | redefines => exact id
  | _ => trivial

/-- A column of the current side is not dropped exactly if the two sides share a column:
that one is on both sides, or it is renamed to one of its type. -/
theorem exists_not_drops_iff :
    (∃ column ∈ current.columns.keys, ¬ target.Drops current column) ↔
      target.SharesColumn current := by
  constructor
  · rintro ⟨column, hthere, hkept⟩
    by_cases htarget : column ∈ target.columns.keys
    · exact .inl ⟨column, htarget, hthere⟩
    · obtain ⟨pair, hpair, rfl⟩ := (renamed_or_gone hthere htarget).resolve_right hkept
      obtain ⟨⟨hold, -⟩, hnew, -⟩ := lookups_of_mem_pairs hpair
      have hmatches := matches_of_mem_pairs hpair
      exact .inr ⟨_, _, _, _, hnew, hold, ((Column.type?_beq_iff _ _).1 hmatches).symm⟩
  · rintro (⟨column, htarget, hcurrent⟩ | ⟨a, b, c, d, hc, hd, htype⟩)
    · exact ⟨column, hcurrent, not_drops_of_mem_keys htarget⟩
    · by_cases ha : a ∈ current.columns.keys
      · exact ⟨a, ha, not_drops_of_mem_keys (Keyed.mem_keys_of_get? hc)⟩
      · by_cases hdrops : target.Drops current b
        · obtain ⟨gone, hgone, rfl⟩ := List.mem_map.1 hdrops
          obtain rfl := Option.some.inj ((lookups_of_mem_gone hgone).1.symm.trans hd)
          rcases renamed_or_new (Keyed.mem_keys_of_get? hc) ha with ⟨pair, hpair, -⟩ | halone
          · have hold := (lookups_of_mem_pairs hpair).1.1
            exact ⟨_, Keyed.mem_keys_of_get? hold, not_drops_of_mem_pairs hpair⟩
          -- what goes alone and what comes alone are not of one type
          · obtain ⟨new, hnew, rfl⟩ := List.mem_map.1 halone
            obtain rfl := Option.some.inj ((lookups_of_mem_new hnew).1.symm.trans hc)
            exact absurd htype.symm ((target.columnPairing_byRank current).apart hgone hnew)
        · exact ⟨b, Keyed.mem_keys_of_get? hd, hdrops⟩

/-- Of a table whose sides share no column every column is dropped before one is added. -/
theorem exists_run_empty (hcurrent : current.WellFormed) (h : ¬ target.SharesColumn current) :
    ∃ first rest, target.plan current = first ++ rest ∧
      run nameColumns.step first current.columns.names = some .empty := by
  have hdrops : ∀ column ∈ current.columns.keys, target.Drops current column := by
    intro column hcolumn
    by_contra hkept
    exact h (exists_not_drops_iff.1 ⟨column, hcolumn, hkept⟩)
  have hpairs : (target.columnPairing current).pairs = [] := by
    refine List.eq_nil_iff_forall_not_mem.2 fun pair hpair => ?_
    have hold := Keyed.mem_keys_of_get? (lookups_of_mem_pairs hpair).1.1
    exact not_drops_of_mem_pairs hpair (hdrops _ hold)
  have hblock : Establishes nameColumns.rules (target.conversion current
      ++ (target.columnPairing current).gone.flatMap (target.dropColumnStatements current))
      ([] ++ (target.columnPairing current).gone.map (·.1)) (nameColumns.view current).get?
      target.columns.names.get? :=
    (ColumnModel.establishes_conversion target current _ _).append
      (Pairing.nodup_parts (target.columnPairing_nodup current)).2.1
      (ColumnModel.establishes_dropped hcurrent (nameColumns_fits target current))
  refine ⟨_, (target.columnPairing current).new.flatMap target.addColumnStatements
    ++ (target.columns.common current.columns).flatMap target.sharedColumnStatements, ?_,
    (Establishes.run_eq (hblock.congr (fun _ _ => rfl) ?_)
      (ColumnModel.onePrimary_view hcurrent) (guarded_nameColumns _ _) ?_).1⟩
  · rw [plan, hpairs, List.map_nil, List.append_nil, List.append_assoc]
  · intro column hcolumn
    have hnot := mt not_drops_of_mem_keys (not_not_intro hcolumn)
    rw [Keyed.get?_names, Keyed.get?_eq_none_iff.2 hnot]
    rfl
  · intro column hcolumn
    have hnot : column ∉ current.columns.keys := fun hthere => hcolumn (hdrops column hthere)
    rw [ColumnModel.get?_view, Keyed.get?_eq_none_iff.2 hnot]
    rfl

end Table

/-! ## Tables on both sides -/

namespace Schema

variable {target current : Schema} {key : String} {t u : Table}

/-- Every statement of a plan that names a table on both sides alters it, and spares the
columns of it that are not dropped. -/
theorem spares_of_mem_plan (htarget : target.WellFormed) (hcurrent : current.WellFormed)
    {database : String} (ht : target.tables.get? key = some t)
    (hu : current.tables.get? key = some u) {s : Statement}
    (hs : s ∈ target.plan current database) (hkey : key ∈ s.tables) :
    s.alters? = some key ∧ s.Spares fun column => ¬ t.Drops u column := by
  obtain ⟨before, after, hplan, hothers⟩ := plan_eq_append_plan htarget hcurrent database ht hu
  have hmem : s ∈ t.plan u := by
    rw [hplan, List.append_assoc, List.mem_append, List.mem_append] at hs
    rcases hs with hs | hs | hs
    · exact absurd hkey (hothers s (List.mem_append_left _ hs))
    · exact hs
    · exact absurd hkey (hothers s (List.mem_append_right _ hs))
  have hname := htarget.table_name ht
  have halters := Table.alters_of_mem_plan ((hcurrent.table_name hu).trans hname.symm) hmem
  exact ⟨hname ▸ halters, Table.spares_of_mem_plan (htarget.table ht) hmem⟩

/-- A plan that can be replayed can be replayed in part. -/
theorem exists_replay_of_prefix (htarget : target.WellFormed) (hcurrent : current.WellFormed)
    {database : String} {before after : List Statement}
    (hplan : target.plan current database = before ++ after) :
    ∃ reached, current.names.replay before = some reached ∧
      run Names.step after reached = some target.names := by
  have hrun := SchemaPlan.replay_plan htarget hcurrent database
  rw [hplan, Names.replay, run_append] at hrun
  exact Option.bind_eq_some_iff.1 hrun

/-- A table whose sides share a column has a column all along. -/
theorem leavesColumn_of_sharesColumn (htarget : target.WellFormed)
    (hcurrent : current.WellFormed) {database : String} (ht : target.tables.get? key = some t)
    (hu : current.tables.get? key = some u) (h : t.SharesColumn u)
    {before after : List Statement} (hplan : target.plan current database = before ++ after) :
    ∃ reached column, current.names.replay before = some reached ∧
      reached.HasColumn key column := by
  obtain ⟨reached, hreached, -⟩ := exists_replay_of_prefix htarget hcurrent hplan
  obtain ⟨column, hthere, hkept⟩ := Table.exists_not_drops_iff.2 h
  obtain ⟨d, hd⟩ := Keyed.mem_keys_iff.1 hthere
  have hstart : current.names.LeavesColumn key fun column => ¬ t.Drops u column :=
    ⟨u.columns.names, get?_schemaNames hu, column, hkept, get?_columnNames hd⟩
  obtain ⟨columns, hget, left, -, hleft⟩ := hstart.replay (fun s hs hkey =>
    spares_of_mem_plan htarget hcurrent ht hu (hplan ▸ List.mem_append_left _ hs) hkey) hreached
  exact ⟨reached, left, hreached, columns, hget, Keyed.contains_of_get? hleft⟩

/-- A table whose sides share no column has none at some point. -/
theorem exists_emptied_of_not_sharesColumn (htarget : target.WellFormed)
    (hcurrent : current.WellFormed) {database : String} (ht : target.tables.get? key = some t)
    (hu : current.tables.get? key = some u) (h : ¬ t.SharesColumn u) :
    ∃ before after reached, target.plan current database = before ++ after ∧
      current.names.replay before = some reached ∧ reached.get? key = some .empty := by
  obtain ⟨before, after, hplan, hothers⟩ := plan_eq_append_plan htarget hcurrent database ht hu
  obtain ⟨first, rest, hfirst, hrun⟩ := Table.exists_run_empty (hcurrent.table hu) h
  rw [hfirst, List.append_assoc, List.append_assoc] at hplan
  obtain ⟨mid, hmid, -⟩ := exists_replay_of_prefix htarget hcurrent hplan
  have hget : mid.get? key = some u.columns.names := by
    rw [TableModel.get?_run (fun s hs => hothers s (List.mem_append_left _ hs)) hmid]
    exact get?_schemaNames hu
  have hname := htarget.table_name ht
  have halters : ∀ s ∈ first, s.alters? = some key := by
    intro s hs
    rw [← hname]
    exact Table.alters_of_mem_plan ((hcurrent.table_name hu).trans hname.symm)
      (hfirst ▸ List.mem_append_left _ hs)
  have hempties : run Names.step first mid = some (mid.insert key .empty) := by
    refine (TableModel.run_alter halters hget).trans ?_
    rw [show run nameTables.alter first u.columns.names = some .empty from hrun,
      Option.map_some]
  refine ⟨before ++ first, rest ++ after, mid.insert key .empty, ?_, ?_,
    Keyed.get?_insert_self _ _ _⟩
  · rw [hplan, List.append_assoc]
  · rw [Names.replay, run_append, show run Names.step before current.names = some mid from hmid]
    exact hempties

end Schema

/-- Between two valid schemas there is a comparison.  Its statements can be replayed on the
names up to any point, and a table on both sides whose sides share a column, by name or by
type, has a column at each.  One whose sides share none has no column at some point, since
all that go are dropped before any comes. -/
theorem diff_keeps_columns {target current : Schema} (htarget : target.validate = .ok ())
    (hcurrent : current.validate = .ok ()) (database : String) {key : String} {t u : Table}
    (ht : target.tables.get? key = some t) (hu : current.tables.get? key = some u) :
    target.diff current database = .ok (.ofStatements database (target.plan current database)) ∧
    (t.SharesColumn u → ∀ before after, target.plan current database = before ++ after →
      ∃ reached column, current.names.replay before = some reached ∧
        reached.HasColumn key column) ∧
    (¬ t.SharesColumn u → ∃ before after reached,
      target.plan current database = before ++ after ∧
        current.names.replay before = some reached ∧ reached.get? key = some .empty) := by
  have htarget' := (Schema.validate_eq_ok_iff target).1 htarget
  have hcurrent' := (Schema.validate_eq_ok_iff current).1 hcurrent
  exact ⟨Schema.diff_of_wellFormed htarget' hcurrent' database,
    fun h _ _ => Schema.leavesColumn_of_sharesColumn htarget' hcurrent' ht hu h,
    Schema.exists_emptied_of_not_sharesColumn htarget' hcurrent' ht hu⟩

/-- A field of a farm. -/
def field : Table where
  name := "field"
  columns := .ofList [
    ("area", { name := "area", dataType := "int" }),
    ("crop", { name := "crop", dataType := "varchar", maxLength := 20 })]

/-- The field with its area under another name and without its crop. -/
def nextField : Table where
  name := "field"
  columns := .ofList [
    ("size", { name := "size", dataType := "int" }),
    ("soil", { name := "soil", dataType := "text" })]

/-- A farm of a field and a shed. -/
def farm : Schema where
  tables := .ofList [
    ("field", field),
    ("shed", { name := "shed", columns := .ofList [
      ("tools", { name := "tools", dataType := "int" })] })]

/-- The farm with another shed: none of its columns was there before. -/
def nextFarm : Schema where
  tables := .ofList [
    ("field", nextField),
    ("shed", { name := "shed", columns := .ofList [
      ("roof", { name := "roof", dataType := "text" })] })]

theorem diff_keeps_columns_farm :
    (nextFarm.validate = .ok () ∧ farm.validate = .ok ()) ∧
    (nextFarm.tables.get? "field" = some nextField ∧ farm.tables.get? "field" = some field) ∧
    nextField.SharesColumn field ∧
    nextFarm.diff farm "App" = .ok (.ofStatements "App" (nextFarm.plan farm "App")) ∧
    ∀ before after, nextFarm.plan farm "App" = before ++ after →
      ∃ reached column, farm.names.replay before = some reached ∧
        reached.HasColumn "field" column := by
  have hvalid : nextFarm.validate = .ok () ∧ farm.validate = .ok () := by decide +kernel
  have htables : nextFarm.tables.get? "field" = some nextField ∧
      farm.tables.get? "field" = some field := by decide +kernel
  have hshares : nextField.SharesColumn field := .inr ⟨"size", "area", _, _, rfl, rfl, rfl⟩
  obtain ⟨hdiff, hleft, -⟩ :=
    diff_keeps_columns hvalid.1 hvalid.2 "App" htables.1 htables.2
  exact ⟨hvalid, htables, hshares, hdiff, hleft hshares⟩

/-- The shed has a column before and one after, and none between: the old one is dropped
before the new one is added. -/
theorem farm_empties_shed :
    (nextFarm.validate = .ok () ∧ farm.validate = .ok ()) ∧
    nextFarm.plan farm "App" = [
      .changeColumn "field" "area" { name := "size", dataType := "int" },
      .dropColumn "field" "crop",
      .addColumn "field" { name := "soil", dataType := "text" },
      .dropColumn "shed" "tools",
      .addColumn "shed" { name := "roof", dataType := "text" }] ∧
    (farm.names.get? "shed" = some (.ofList [("tools", ())]) ∧
      nextFarm.names.get? "shed" = some (.ofList [("roof", ())])) ∧
    (farm.names.replay ((nextFarm.plan farm "App").take 4)).bind (·.get? "shed")
      = some .empty := by
  decide +kernel

end SchemaPlan
