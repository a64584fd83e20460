import SchemaPlan.Proofs.Replay.Origins
set_option autoImplicit false

/-!
# Names of indexes after a plan

A column that gets a new name, and a table that does, keep their indexes under the names
that these have.  So a plan that starts from columns covered by indexes under canonical
names ends with columns covered by indexes that are named after the origins of their
tables and of themselves (`diff_index_names`).  These are canonical names exactly where
nothing was renamed, as nothing in a plan gives a renamed column a new index.
-/

namespace SchemaPlan

open Replay

/-! ## Tables with their indexes -/

/-- The indexes of a table under their canonical names. -/
def Table.canonicalIndexes (table : Table) : Keyed Index :=
  .ofList (table.columns.values.filterMap fun c =>
    c.columnKey.indexKind?.map fun kind => (kind.indexName table.name c.name, ⟨kind, c.name⟩))

/-- A replay of tables that keeps their columns with their keys, and their indexes. -/
def indexedTables : TableModel IndexedTable where
  ofTable t := ⟨keyColumns.view t, t.canonicalIndexes⟩
  create t := ⟨t.columns.mapValues fun _ c => c.bare.columnKey, .empty⟩
  rename _ v := v
  alter := IndexedTable.alter
  requires _ _ := True
  inv _ := True
  inv_ofTable _ := trivial
  inv_rename _ := trivial

/-- The tables of a database, each with its columns and its indexes. -/
abbrev IndexedSchema := Keyed IndexedTable

/-- A schema whose columns are covered under canonical names. -/
def Schema.indexed (schema : Schema) : IndexedSchema := indexedTables.view schema

/-! ## What stays along a run -/

namespace IndexedTable

/-- What holds of a new table, stays when a statement respects the names by which columns
are called, and depends on the names of the columns that are there only. -/
structure Stays (P : IndexedTable → String → (String → String) → Prop) : Prop where
  create : ∀ (t : Table) (table : String) (origin : String → String),
    P (indexedTables.create t) table origin
  alter : ∀ {v w : IndexedTable} {table : String} {origin : String → String}
    {old : String → Prop} {s : Statement}, P v table origin → s.Respects table origin old →
      IndexedTable.alter s v = some w → P w table origin
  congr : ∀ {v : IndexedTable} {table : String} {origin origin' : String → String},
    P v table origin →
      (∀ column key, v.keys.get? column = some key → origin' column = origin column) →
        P v table origin'

theorem columnKey_bare_ne (c : Column) (kind : IndexKind) : c.bare.columnKey ≠ kind.key := by
  unfold Column.bare
  split <;> cases kind <;> simp_all [IndexKind.key]

theorem stays_covers : Stays fun v table origin => v.Covers table origin where
  create t table origin column kind hkey := by
    obtain ⟨c, -, hkey⟩ := Keyed.get?_mapValues_eq_some_iff.1 hkey
    exact absurd hkey (columnKey_bare_ne c kind)
  alter h hs hstep := h.alter hs hstep
  congr h horigin := h.congr horigin

theorem stays_owned : Stays fun v table origin => v.Owned table origin where
  create _ _ _ _ _ h := nomatch h
  alter h hs hstep := h.alter hs hstep
  congr h horigin := h.congr horigin

end IndexedTable

namespace IndexedSchema

/-- The tables after some statements. -/
def replay (tables : IndexedSchema) (statements : List Statement) : Option IndexedSchema :=
  run indexedTables.step statements tables

/-- What holds of each table, with the names by which it and its columns are called. -/
def All (P : IndexedTable → String → (String → String) → Prop) (origins : Origins)
    (tables : IndexedSchema) : Prop :=
  ∀ table v, tables.get? table = some v → P v (origins.table table) (origins.column table)

variable {P : IndexedTable → String → (String → String) → Prop} {origins : Origins}
  {tables next : IndexedSchema}

theorem All.insert (h : All P origins tables) {table : String} {v : IndexedTable}
    (hv : P v (origins.table table) (origins.column table)) :
    All P origins (tables.insert table v) := by
  intro other w hw
  obtain ⟨rfl, rfl⟩ | ⟨-, hw⟩ := Keyed.get?_insert_eq_some_iff.1 hw
  · exact hv
  · exact h other w hw

theorem All.erase (h : All P origins tables) (table : String) :
    All P origins (tables.erase table) := by
  intro other w hw
  exact h other w (Keyed.get?_erase_eq_some_iff.1 hw).2

theorem All.step (h : All P origins tables) (hP : IndexedTable.Stays P) {s : Statement}
    (hs : s.KeepsOrigins origins) (hstep : indexedTables.step s tables = some next) :
    All P origins next := by
  cases halters : s.alters? with
  | some table =>
    rw [TableModel.step_of_alters halters] at hstep
    obtain ⟨v, hv, hstep⟩ := Option.bind_eq_some_iff.1 hstep
    obtain ⟨w, hw, rfl⟩ := Option.map_eq_some_iff.1 hstep
    obtain ⟨old, hold⟩ := hs.alters halters
    exact h.insert (hP.alter (h table v hv) hold hw)
  | none =>
    cases s with
    | alterDatabase =>
      obtain rfl := Option.some.inj hstep
      exact h
    | createTable t =>
      rw [TableModel.step, Option.ite_none_left_eq_some] at hstep
      obtain rfl := Option.some.inj hstep.2
      exact h.insert (hP.create t _ _)
    | dropTable table =>
      rw [TableModel.step, Option.ite_none_right_eq_some] at hstep
      obtain rfl := Option.some.inj hstep.2
      exact h.erase table
    | renameTable old new =>
      obtain ⟨v, hv, hstep⟩ := Option.bind_eq_some_iff.1 hstep
      rw [Option.ite_none_left_eq_some] at hstep
      obtain rfl := Option.some.inj hstep.2
      refine (h.erase old).insert ?_
      rw [(hs.renames rfl).1, (hs.renames rfl).2]
      exact h old v hv
    | _ => cases halters

theorem All.replay (h : All P origins tables) (hP : IndexedTable.Stays P)
    {statements : List Statement} (hs : ∀ s ∈ statements, s.KeepsOrigins origins)
    (hreplay : tables.replay statements = some next) : All P origins next := by
  induction statements generalizing tables with
  | nil => exact Option.some.inj hreplay ▸ h
  | cons s rest ih =>
    obtain ⟨middle, hmiddle, hrest⟩ := Option.bind_eq_some_iff.1 hreplay
    exact ih (h.step hP (hs s List.mem_cons_self) hmiddle)
      (fun t ht => hs t (List.mem_cons_of_mem _ ht)) hrest

/-- The keys of the columns of each table. -/
def keySets (tables : IndexedSchema) : KeySets := tables.mapValues fun _ v => v.keys

/-- Each column with an index of its own is covered by an index under the name that the
origins of its table and its own give. -/
def Covered (origins : Origins) (tables : IndexedSchema) : Prop :=
  All (fun v table origin => v.Covers table origin) origins tables

/-- Each column with an index of its own is covered by one index of the kind, and that is
under the name that the origins of its table and its own give. -/
def Named (origins : Origins) (tables : IndexedSchema) : Prop :=
  All (fun v table origin => ∀ (column : String) (kind : IndexKind),
    v.keys.get? column = some kind.key → ∀ name,
      v.indexes.get? name = some ⟨kind, column⟩ ↔ name = kind.indexName table (origin column))
    origins tables

theorem named_of_covered {origins : Origins} {tables : IndexedSchema}
    (hcovered : tables.Covered origins)
    (howned : All (fun v table origin => v.Owned table origin) origins tables) :
    tables.Named origins := by
  intro table v hv column kind hkey name
  constructor
  · intro hindex
    exact (howned table v hv _ _ hindex).2
  · rintro rfl
    exact hcovered table v hv column kind hkey

end IndexedSchema

/-! ## Canonical indexes -/

namespace Table

variable {table : Table} (h : table.WellFormed)
include h

theorem get?_canonicalIndexes {name : String} {index : Index} :
    table.canonicalIndexes.get? name = some index ↔
      name = index.kind.indexName table.name index.column ∧
        ∃ c, table.columns.get? index.column = some c ∧ c.columnKey = index.kind.key := by
  have hmem : ∀ {name : String} {index : Index},
      table.canonicalIndexes.get? name = some index →
        name = index.kind.indexName table.name index.column ∧
          ∃ c, table.columns.get? index.column = some c ∧ c.columnKey = index.kind.key := by
    intro name index hget
    obtain ⟨c, hc, hentry⟩ := List.mem_filterMap.1 (Keyed.mem_of_get?_ofList hget)
    obtain ⟨kind, hkind, heq⟩ := Option.map_eq_some_iff.1 hentry
    obtain ⟨rfl, rfl⟩ := Prod.mk.inj heq
    obtain ⟨e, he, rfl⟩ := List.mem_map.1 hc
    have hthere := Keyed.get?_eq_some_iff.2 he
    exact ⟨rfl, e.2, h.column_name hthere ▸ hthere, ColumnKey.indexKind?_eq_some_iff.1 hkind⟩
  obtain ⟨kind, column⟩ := index
  refine ⟨hmem, ?_⟩
  rintro ⟨rfl, c, hc, hkey⟩
  -- the name is that of an entry, and names tell indexes apart
  have hname : kind.indexName table.name column ∈ table.canonicalIndexes.keys := by
    refine Keyed.mem_keys_ofList.2
      (List.mem_map.2 ⟨(_, ⟨kind, column⟩), List.mem_filterMap.2 ⟨c, ?_, ?_⟩, rfl⟩)
    · exact List.mem_map.2 ⟨_, Keyed.get?_eq_some_iff.1 hc, rfl⟩
    · rw [ColumnKey.indexKind?_eq_some_iff.2 hkey, h.column_name hc]
      rfl
  obtain ⟨⟨kind', column'⟩, hget⟩ := Keyed.mem_keys_iff.1 hname
  obtain ⟨rfl, rfl⟩ : kind = kind' ∧ column = column' := IndexKind.indexName_inj.1 (hmem hget).1
  exact hget

theorem covers_indexed : (indexedTables.ofTable table).Covers table.name id := by
  intro column kind hkey
  obtain ⟨c, hc, hkey⟩ := ColumnModel.get?_view_eq_some_iff.1 hkey
  exact (get?_canonicalIndexes h).2 ⟨rfl, c, hc, hkey⟩

theorem owned_indexed : (indexedTables.ofTable table).Owned table.name id := by
  intro name index hindex
  obtain ⟨hname, c, hc, -⟩ := (get?_canonicalIndexes h).1 hindex
  exact ⟨⟨c.columnKey, ColumnModel.get?_view_eq_some_iff.2 ⟨c, hc, rfl⟩⟩, hname⟩

theorem shadowed_indexed (old : String → Prop) :
    (indexedTables.ofTable table).Shadowed table.name old table.indexNames where
  there {name index} hindex := by
    obtain ⟨rfl, hkey⟩ := (get?_canonicalIndexes h).1 hindex
    obtain ⟨_, hname⟩ := Keyed.mem_keys_iff.1 ((indexName_mem_iff h).2 hkey)
    exact hname
  gone {name} hname hindex := by
    obtain ⟨c, -, kind, -, rfl⟩ := mem_keys_indexNames.1 (Keyed.mem_keys_of_get? hname)
    have hkey := (indexName_mem_iff h).1 (Keyed.mem_keys_of_get? hname)
    have hthere : table.canonicalIndexes.get? _ = some ⟨kind, c.name⟩ :=
      (get?_canonicalIndexes h).2 ⟨rfl, hkey⟩
    exact nomatch hthere.symm.trans hindex

end Table

/-! ## Plans -/

section Plan

variable {target current : Schema} (htarget : target.WellFormed) (hcurrent : current.WellFormed)
  (database : String)
include htarget hcurrent

/-- What is said of the names that tables and columns have is said of the names from
which a plan starts. -/
theorem IndexedSchema.All.start {P : IndexedTable → String → (String → String) → Prop}
    (hP : IndexedTable.Stays P) {start : IndexedSchema}
    (hkeys : start.keySets = current.keySets)
    (h : IndexedSchema.All P (.of []) start) :
    IndexedSchema.All P (.of (target.plan current database)) start := by
  intro table v hv
  have hview : start.keySets.get? table = some v.keys := by
    rw [IndexedSchema.keySets, Keyed.get?_mapValues, hv]
    rfl
  rw [hkeys] at hview
  obtain ⟨u, hu, hcolumns⟩ := TableModel.get?_view_eq_some_iff.1 hview
  rw [Schema.origin_of_get? htarget hcurrent database hu]
  refine hP.congr (h table v hv) fun column key hkey => ?_
  rw [← hcolumns] at hkey
  obtain ⟨d, hd, -⟩ := ColumnModel.get?_view_eq_some_iff.1 hkey
  exact Schema.columnOrigin_of_get? htarget hcurrent database hu hd

/-- What stays along a run holds where a plan ends, said of the names from which it
starts. -/
theorem IndexedSchema.All.replay_plan {P : IndexedTable → String → (String → String) → Prop}
    (hP : IndexedTable.Stays P) {start last : IndexedSchema}
    (hkeys : start.keySets = current.keySets) (h : IndexedSchema.All P (.of []) start)
    (hreplay : start.replay (target.plan current database) = some last) :
    IndexedSchema.All P (.of (target.plan current database)) last :=
  (h.start htarget hcurrent database hP hkeys).replay hP
    (fun _ hs => Schema.keepsOrigins_plan htarget hcurrent hs) hreplay

/-- A plan can be replayed on a database that has just the canonical indexes. -/
theorem replay_indexed_plan :
    ∃ last, current.indexed.replay (target.plan current database) = some last := by
  obtain ⟨last, hfits⟩ : ∃ last, indexedTables.Fits target current last := by
    refine TableModel.exists_fits (fun {key t u} ht hu => ?_) fun {key t} ht => ⟨trivial, ?_⟩
    · have hname := (hcurrent.table_name hu).trans (htarget.table_name ht).symm
      have horigin := Schema.originOf_shared htarget hcurrent database ht hu
      obtain ⟨keys, hkeys, -⟩ :=
        keyColumns.exists_run_plan (htarget.table ht) (hcurrent.table hu)
      obtain ⟨names, hnames⟩ := IndexNames.run_plan (htarget.table ht) (hcurrent.table hu) hname
      have howned : (indexedTables.ofTable u).Owned t.name
          ((Origins.of (target.plan current database)).column key) := by
        refine hname ▸ (Table.owned_indexed (hcurrent.table hu)).congr fun column key hkey => ?_
        obtain ⟨d, hd, -⟩ := ColumnModel.get?_view_eq_some_iff.1 hkey
        exact horigin.eq_self_of_get? hd
      have hshadowed := Table.shadowed_indexed (hcurrent.table hu) fun column =>
        ∃ d, u.columns.get? column = some d
      rw [hname] at hshadowed
      obtain ⟨w, hw⟩ := howned.exists_run hshadowed
        (fun s hs => horigin.respects (htarget.table ht) (hcurrent.table hu) hname hs)
        hkeys hnames
      exact ⟨w, hw, trivial⟩
    · obtain ⟨keys, hkeys, -⟩ :=
        keyColumns.exists_run_indexes (htarget.table ht) fun c => c.bare.columnKey
      obtain ⟨names, hnames⟩ := IndexNames.run_indexes (htarget.table ht)
      have howned := IndexedTable.stays_owned.create t t.name id
      have hshadowed : (indexedTables.create t).Shadowed t.name (fun _ => False) .empty :=
        ⟨fun h => (nomatch h), fun h => (nomatch h)⟩
      obtain ⟨w, hw⟩ := howned.exists_run hshadowed (fun s hs => by
        obtain ⟨kind, column, rfl⟩ := Table.mem_indexes hs
        exact ⟨rfl, fun other => Iff.rfl⟩) hkeys hnames
      exact ⟨w, hw, trivial⟩
  exact ⟨last, (TableModel.run_plan htarget hcurrent hfits database
    (guarded_of_forall (fun _ _ _ _ _ _ _ => trivial) _)).1⟩

end Plan

theorem keySets_indexed (schema : Schema) : schema.indexed.keySets = schema.keySets := by
  refine Keyed.ext_get? fun table => ?_
  rw [IndexedSchema.keySets, Keyed.get?_mapValues, Schema.indexed, TableModel.get?_view,
    Schema.keySets, TableModel.get?_view]
  cases schema.tables.get? table <;> rfl

theorem all_indexed {P : IndexedTable → String → (String → String) → Prop} {schema : Schema}
    (h : ∀ {key : String} {t : Table}, schema.tables.get? key = some t →
      P (indexedTables.ofTable t) key id) : IndexedSchema.All P (.of []) schema.indexed := by
  intro table v hv
  obtain ⟨t, ht, rfl⟩ := TableModel.get?_view_eq_some_iff.1 hv
  exact h ht

theorem covered_indexed {schema : Schema} (h : schema.WellFormed) :
    schema.indexed.Covered (.of []) :=
  all_indexed fun ht => h.table_name ht ▸ Table.covers_indexed (h.table ht)

/-- Statements lead from columns that are covered by indexes under canonical names to
columns that are covered by indexes under the names of their origins; these are canonical
too if nothing gets a new name.  On a database that has just the canonical indexes the
statements can be replayed, and no column gets another index. -/
structure NamesIndexes (current : Schema) (statements : List Statement) : Prop where
  covers : ∀ {start last : IndexedSchema}, start.keySets = current.keySets →
    start.Covered (.of []) → start.replay statements = some last → last.Covered (.of statements)
  keeps : (∀ old new, .renameTable old new ∉ statements) →
    (∀ table old c, .changeColumn table old c ∈ statements → c.name = old) →
      ∀ {start last : IndexedSchema}, start.keySets = current.keySets →
        start.Covered (.of []) → start.replay statements = some last → last.Covered (.of [])
  canonical : current.indexed.keySets = current.keySets ∧ current.indexed.Covered (.of [])
  names : ∃ last, current.indexed.replay statements = some last ∧ last.Named (.of statements)

theorem namesIndexes_plan {target current : Schema} (htarget : target.WellFormed)
    (hcurrent : current.WellFormed) (database : String) :
    NamesIndexes current (target.plan current database) where
  covers hkeys hstart hreplay :=
    hstart.replay_plan htarget hcurrent database IndexedTable.stays_covers hkeys hreplay
  keeps htables hcolumns start last hkeys hstart hreplay := by
    rw [← Origins.of_eq_of_nil htables hcolumns]
    exact hstart.replay_plan htarget hcurrent database IndexedTable.stays_covers hkeys hreplay
  canonical := ⟨keySets_indexed current, covered_indexed hcurrent⟩
  names := by
    have hkeys := keySets_indexed current
    have hcovered := covered_indexed hcurrent
    have howned : IndexedSchema.All (fun v table origin => v.Owned table origin) (.of [])
        current.indexed :=
      all_indexed fun ht => hcurrent.table_name ht ▸ Table.owned_indexed (hcurrent.table ht)
    obtain ⟨last, hreplay⟩ := replay_indexed_plan htarget hcurrent database
    refine ⟨last, hreplay, IndexedSchema.named_of_covered ?_ ?_⟩
    · exact hcovered.replay_plan htarget hcurrent database
        IndexedTable.stays_covers hkeys hreplay
    · exact howned.replay_plan htarget hcurrent database IndexedTable.stays_owned hkeys hreplay

/-- Between two valid schemas there is a comparison: it lists the plan, and the plan
leaves the indexes of columns under the names of `NamesIndexes`. -/
theorem diff_index_names {target current : Schema} (htarget : target.validate = .ok ())
    (hcurrent : current.validate = .ok ()) (database : String) :
    target.diff current database
        = .ok (.ofStatements database (target.plan current database)) ∧
      NamesIndexes current (target.plan current database) := by
  have htarget' := (Schema.validate_eq_ok_iff target).1 htarget
  have hcurrent' := (Schema.validate_eq_ok_iff current).1 hcurrent
  exact ⟨Schema.diff_of_wellFormed htarget' hcurrent' database,
    namesIndexes_plan htarget' hcurrent' database⟩

/-- A ledger: its entries, and notes on them. -/
def ledger : Schema where
  tables := .ofList [
    ("entry", { name := "entry", columns := .ofList [
      ("code", { name := "code", dataType := "int", columnKey := .unique }),
      ("day", { name := "day", dataType := "date", columnKey := .multiple })] }),
    ("note", { name := "note", columns := .ofList [
      ("page", { name := "page", dataType := "int", columnKey := .multiple })] })]

/-- The ledger with a new name for the codes, and one for the notes. -/
def nextLedger : Schema where
  tables := .ofList [
    ("entry", { name := "entry", columns := .ofList [
      ("day", { name := "day", dataType := "date", columnKey := .multiple }),
      ("number", { name := "number", dataType := "int", columnKey := .unique })] }),
    ("remark", { name := "remark", columns := .ofList [
      ("page", { name := "page", dataType := "int", columnKey := .multiple })] })]

theorem diff_index_names_ledger :
    (nextLedger.validate = .ok () ∧ ledger.validate = .ok ()) ∧
      nextLedger.diff ledger "l" = .ok (.ofStatements "l" (nextLedger.plan ledger "l")) ∧
      NamesIndexes ledger (nextLedger.plan ledger "l") :=
  ⟨by decide +kernel, diff_index_names (by decide +kernel) (by decide +kernel) "l"⟩

/-- The renamed column and the column of the renamed table are not covered under their
canonical names. -/
theorem ledger_loses_index_names :
    (ledger.indexed.replay (nextLedger.plan ledger "l")).map (fun tables =>
        [("entry", "day", IndexKind.plain), ("entry", "number", .unique),
          ("remark", "page", .plain)].map fun (table, column, kind) =>
            (tables.get? table).map fun v => (v.keys.get? column,
              v.indexes.get? (kind.indexName table column)))
      = some [some (some .multiple, some ⟨.plain, "day"⟩), some (some .unique, none),
        some (some .multiple, none)] := by
  decide +kernel

end SchemaPlan
