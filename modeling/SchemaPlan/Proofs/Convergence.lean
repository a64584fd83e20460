import Mathlib.Data.List.Sort
import SchemaPlan.Proofs.Agreement
import SchemaPlan.Proofs.Replay.Definitions
set_option autoImplicit false

/-!
# Convergence in one pass

A plan that renames no table, pairs columns of one key, adds no column with a
primary key and adds a primary key only where there is none, is `Direct`.  Once
a direct plan is replayed on the definitions, the schema is valid again and there
is nothing left to change (`diff_converges`): each attribute that the plan
compares is restated by a statement, and no later statement undoes it.
-/

namespace SchemaPlan

open Replay

/-! ## Columns on both sides -/

/-- Where the key of a column on both sides ends up: a primary key does not turn
into an index of its own, nor the other way round. -/
def ColumnKey.settled (before after : ColumnKey) : ColumnKey :=
  match before, after with
  | .primary, .unique | .primary, .multiple | .unique, .primary | .multiple, .primary => before
  | _, _ => after

theorem ColumnKey.agrees_settled (before after : ColumnKey) :
    after.Agrees (before.settled after) := by
  unfold Agrees IsIndex
  cases before <;> cases after <;> simp [settled]

/-- A column on both sides once its statements are done. -/
def Column.settled (c d : Column) : Column :=
  { (if c.differs d then c else d) with columnKey := d.columnKey.settled c.columnKey }

theorem Column.agrees_settled (c d : Column) : c.Agrees (c.settled d) := by
  have hkey := ColumnKey.agrees_settled d.columnKey c.columnKey
  unfold settled
  cases hdiffers : c.differs d with
  | true => exact ⟨rfl, rfl, rfl, rfl, hkey⟩
  | false =>
    obtain ⟨htype, hset, hcollation, hlength⟩ := Column.differs_eq_false_iff.1 hdiffers
    exact ⟨htype, hset, hcollation, hlength, hkey⟩

/-- A column with the key that it has. -/
theorem Column.with_columnKey {c : Column} {key : ColumnKey} (h : c.columnKey = key) :
    { c with columnKey := key } = c := by
  rw [← h]

/-- The statements on a key leave a column with the settled key. -/
theorem effects_keyTransition (table column : String) (c : Column) (key : ColumnKey) :
    definedColumns.effects (keyTransition table column c.columnKey key) c
      = { c with columnKey := c.columnKey.settled key } := by
  cases hc : c.columnKey <;> cases key <;>
    first
      | exact (Column.with_columnKey hc).symm
      | simp [keyTransition, ColumnModel.effects, ColumnModel.effect, ColumnModel.clear,
          definedColumns, ColumnKey.settled, IndexKind.key, hc]

/-- The statements on a column on both sides leave it settled. -/
theorem effects_sharedColumnStatements (target : Table) (c d : Column) :
    definedColumns.effects (target.sharedColumnStatements (c, d)) d = c.settled d := by
  have hkey := effects_keyTransition target.name c.name d c.columnKey
  unfold ColumnModel.effects at hkey ⊢
  rw [Table.sharedColumnStatements, List.foldl_append, hkey, Column.settled]
  split <;> rfl

/-- A column that is added and then indexed is as defined, unless it carries the
primary key. -/
theorem effects_addIndexFor? (table : String) {c : Column} (h : c.columnKey ≠ .primary) :
    definedColumns.effects (Statement.addIndexFor? table c.name c.columnKey).toList
      (definedColumns.add c) = c := by
  cases hc : c.columnKey with
  | primary => exact absurd hc h
  | none => exact Column.with_columnKey hc
  | unique => exact Column.with_columnKey hc
  | multiple => exact Column.with_columnKey hc

/-- A column of a new table that is then indexed is as defined. -/
theorem effects_bare (table : String) (c : Column) :
    definedColumns.effects (Statement.addIndexFor? table c.name c.columnKey).toList c.bare
      = c := by
  unfold Column.bare
  cases hc : c.columnKey with
  | none => rfl
  | primary => rfl
  | unique => exact Column.with_columnKey hc
  | multiple => exact Column.with_columnKey hc

theorem Column.primary_of_bare {c : Column} (h : c.bare.columnKey = .primary) :
    c.columnKey = .primary := by
  cases hkey : c.columnKey <;> simp [bare, hkey] at h ⊢

/-! ## Tables on both sides -/

/-- A table on both sides once its plan is done. -/
def Table.settled (target current : Table) : Table :=
  { current with
    characterSet := target.characterSet
    collation := target.collation
    columns := target.columns.mapValues fun key c =>
      ((current.columns.get? key).map c.settled).getD c }

/-- The conditions under which the plan of a table leads to its target at once. -/
structure Table.Direct (target current : Table) : Prop where
  renamed_key : ∀ {old : String} {c d : Column},
    .changeColumn target.name old c ∈ target.plan current → c.name ≠ old →
      current.columns.get? old = some d → d.columnKey = c.columnKey
  added_key : ∀ {c : Column}, .addColumn target.name c ∈ target.plan current →
    c.columnKey ≠ .primary

namespace Table

variable {target current : Table}

theorem get?_settled {key : String} {c : Column} (hc : target.columns.get? key = some c) :
    (target.settled current).columns.get? key
      = some (((current.columns.get? key).map c.settled).getD c) := by
  rw [settled, Keyed.get?_mapValues, hc, Option.map_some]

/-- The settled columns are where the plan of a table leads. -/
theorem fits_settled (htarget : target.WellFormed) (hdirect : target.Direct current) :
    definedColumns.Fits target current (target.settled current).columns where
  renamed {gone new} h := by
    obtain ⟨⟨hold, -⟩, hthere, hfree⟩ := lookups_of_mem_pairs h
    obtain ⟨-, hne⟩ := name_ne_of_mem_columnPairing htarget h
    have hkey := hdirect.renamed_key (changeColumn_mem_plan h) hne hold
    rw [get?_settled hthere, hfree, Option.map_none, Option.getD_none]
    simp only [definedColumns, hkey]
  added {new} h := by
    obtain ⟨hthere, hfree⟩ := lookups_of_mem_new h
    rw [get?_settled hthere, hfree, Option.map_none, Option.getD_none,
      effects_addIndexFor? _ (hdirect.added_key (addColumn_mem_plan_iff.2 ⟨new, h, rfl⟩))]
  shared {key c d} hc hd := by
    rw [get?_settled hc, hd, Option.map_some, Option.getD_some]
    exact congrArg some (effects_sharedColumnStatements target c d).symm
  absent h := by
    rw [settled, Keyed.get?_mapValues, Keyed.get?_eq_none_iff.2 h]
    rfl

theorem rests_of_altersColumns {statements : List Statement} {name : String}
    (h : ∀ s ∈ statements, s.altersColumns? = some name) (t : Table) :
    columnsPart.rests statements t = t := by
  refine columnsPart.rests_eq_self fun s hs => ?_
  have hs' := h s hs
  cases s <;> first | rfl | exact nomatch hs'

/-- The plan of a table leaves it with the character set and the collation of the
target. -/
theorem rests_plan (hname : current.name = target.name) :
    columnsPart.rests (target.plan current) current
      = { current with
          characterSet := target.characterSet
          collation := target.collation } := by
  rw [plan_eq, columnsPart.rests_append,
    rests_of_altersColumns fun s hs => altersColumns_of_mem_columnPlan hname hs]
  cases hconversion : target.conversion current with
  | nil =>
    obtain ⟨hset, hcollation⟩ := conversion_eq_nil_iff.1 hconversion
    rw [hset, hcollation]
    rfl
  | cons s rest =>
    unfold conversion at hconversion
    split at hconversion
    · obtain ⟨rfl, rfl⟩ := List.cons.inj hconversion
      rfl
    · exact nomatch hconversion

/-- The plan of a table runs on it and leaves it settled. -/
theorem run_alter_plan (htarget : target.WellFormed) (hcurrent : current.WellFormed)
    (hname : current.name = target.name) (hdirect : target.Direct current)
    (hguard : Guarded Table.alter definedTables.requires (target.plan current) current) :
    run Table.alter (target.plan current) current = some (target.settled current) ∧
      definedColumns.OnePrimary (target.settled current).columns := by
  have hview : definedColumns.view current = current.columns := Keyed.mapValues_id _
  have hcolumns : Guarded definedColumns.step definedColumns.guard (target.plan current)
      current.columns := columnsPart.guarded_lift hguard
  obtain ⟨hrun, hone⟩ := ColumnModel.run_plan htarget hcurrent (fits_settled htarget hdirect)
    (by rw [hview]; exact hcolumns)
  rw [hview] at hrun
  refine ⟨?_, hone⟩
  rw [alter, columnsPart.run_lift, rests_plan hname]
  exact congrArg (Option.map _) hrun

/-- The settled table is well-formed. -/
theorem WellFormed.settled (htarget : target.WellFormed) (hcurrent : current.WellFormed)
    (hone : definedColumns.OnePrimary (target.settled current).columns) :
    (target.settled current).WellFormed := by
  have hcolumn : ∀ {key : String} {e : Column},
      (target.settled current).columns.get? key = some e →
        e.name = key ∧ ∃ type, e.type? = some type := by
    intro key e he
    obtain ⟨c, hc, rfl⟩ := Keyed.get?_mapValues_eq_some_iff.1 he
    cases hd : current.columns.get? key with
    | none => exact ⟨htarget.column_name hc, htarget.column_type hc⟩
    | some d =>
      rw [Option.map_some, Option.getD_some, Column.settled]
      split
      · exact ⟨(htarget.column_name hc :), (htarget.column_type hc :)⟩
      · exact ⟨(hcurrent.column_name hd :), (hcurrent.column_type hd :)⟩
  exact ⟨fun he => (hcolumn he).1, fun he => (hcolumn he).2, fun hd he hdp hep =>
    hone hd he (beq_iff_eq.2 hdp) (beq_iff_eq.2 hep)⟩

/-- The settled table agrees with its target. -/
theorem agrees_settled (target current : Table) : target.Agrees (target.settled current) := by
  refine ⟨rfl, rfl, (Keyed.keys_mapValues _ _).symm, fun {key c e} hc he => ?_⟩
  obtain rfl := Option.some.inj ((get?_settled hc).symm.trans he)
  cases current.columns.get? key with
  | none => exact .refl c
  | some d => exact c.agrees_settled d

/-- A new table with its indexes is as defined. -/
theorem run_alter_indexes {table : Table} (h : table.WellFormed) :
    definedColumns.OnePrimary table.bare.columns ∧
      run Table.alter table.indexes table.bare = some table ∧
      definedColumns.OnePrimary table.columns := by
  have hbare : definedColumns.OnePrimary table.bare.columns := by
    intro key other v w hv hw hvp hwp
    rw [bare, Keyed.get?_mapValues] at hv hw
    obtain ⟨c, hc, rfl⟩ := Option.map_eq_some_iff.1 hv
    obtain ⟨d, hd, rfl⟩ := Option.map_eq_some_iff.1 hw
    exact h.primary_unique hc hd (Column.primary_of_bare (beq_iff_eq.1 hvp))
      (Column.primary_of_bare (beq_iff_eq.1 hwp))
  obtain ⟨hrun, hone⟩ := ColumnModel.run_indexes (m := definedColumns) Column.bare h hbare
  have hindexed : definedColumns.indexed table Column.bare = table.columns := by
    simp only [ColumnModel.indexed, effects_bare, Keyed.mapValues_id]
  have hrests : columnsPart.rests table.indexes table.bare = table.bare :=
    rests_of_altersColumns table.altersColumns_indexes table.bare
  rw [hindexed] at hrun hone
  refine ⟨hbare, ?_, hone⟩
  rw [alter, columnsPart.run_lift, hrests]
  exact congrArg (Option.map _) hrun

end Table

/-! ## Schemas -/

namespace Schema

variable {target current : Schema}

/-- A schema once the plan to a target is done. -/
def settled (target current : Schema) (database : String) : Schema :=
  { tablesPart.rests (target.defaultsStatement current database) current with
    tables := target.tables.mapValues fun key t =>
      ((current.tables.get? key).map t.settled).getD t }

/-- The conditions under which statements lead from one schema to another at
once: no table is renamed, a renamed column keeps its key, no column comes with a
primary key, and a primary key is added where there is none. -/
structure Direct (current : Schema) (statements : List Statement) : Prop where
  no_rename : ∀ old new : String, .renameTable old new ∉ statements
  renamed_key : ∀ {table old : String} {c d : Column} {t : Table},
    .changeColumn table old c ∈ statements → c.name ≠ old →
      current.tables.get? table = some t → t.columns.get? old = some d →
        d.columnKey = c.columnKey
  added_key : ∀ {table : String} {c : Column}, .addColumn table c ∈ statements →
    c.columnKey ≠ .primary
  primary_free : ∀ {before after : List Statement} {table column : String} {reached : Schema},
    statements = before ++ .addPrimaryKey table column :: after →
      current.replay before = some reached →
        ∀ t, reached.tables.get? table = some t →
          ∀ key c, t.columns.get? key = some c → c.columnKey ≠ .primary

theorem Direct.table {database : String}
    (hdirect : current.Direct (target.plan current database))
    (htarget : target.WellFormed) {key : String} {t u : Table}
    (ht : target.tables.get? key = some t) (hu : current.tables.get? key = some u) :
    t.Direct u := by
  have hpair : (t, u) ∈ target.tables.common current.tables := Keyed.mem_common.2 ⟨key, ht, hu⟩
  obtain rfl := htarget.table_name ht
  constructor
  · intro old c d hchange hne hd
    exact hdirect.renamed_key (mem_plan_of_mem_common hpair hchange) hne hu hd
  · intro c hadd
    exact hdirect.added_key (mem_plan_of_mem_common hpair hadd)

theorem get?_settled {database : String} {key : String} {t : Table}
    (ht : target.tables.get? key = some t) :
    (target.settled current database).tables.get? key
      = some (((current.tables.get? key).map t.settled).getD t) := by
  rw [settled, Keyed.get?_mapValues, ht, Option.map_some]

/-- The settled tables are where the plan of a schema leads. -/
theorem fits_settled {database : String} (htarget : target.WellFormed)
    (hcurrent : current.WellFormed) (hdirect : current.Direct (target.plan current database)) :
    definedTables.Fits target current (target.settled current database).tables where
  shared {key t u} ht hu := by
    have hname := (hcurrent.table_name hu).trans (htarget.table_name ht).symm
    refine ⟨t.settled u, ?_, fun hguard => ?_⟩
    · rw [get?_settled ht, hu, Option.map_some, Option.getD_some]
    · exact Table.run_alter_plan (htarget.table ht) (hcurrent.table hu) hname
        (hdirect.table htarget ht hu) hguard
  renamed {gone new} h := by
    refine absurd ?_ (hdirect.no_rename gone.1 new.1)
    rw [plan_eq, tablePlan]
    simp only [List.mem_append]
    exact .inr (.inl (.inl (.inr (List.mem_map.2 ⟨(gone, new), h, rfl⟩))))
  created {new} h := by
    obtain ⟨hthere, hfree⟩ := lookups_of_mem_new h
    refine ⟨new.2, ?_, Table.run_alter_indexes (htarget.table hthere)⟩
    rw [get?_settled hthere, hfree, Option.map_none, Option.getD_none]
  absent h := by
    rw [settled, Keyed.get?_mapValues, Keyed.get?_eq_none_iff.2 h]
    rfl

/-- Along a direct plan a primary key is added where there is none. -/
theorem Direct.guarded {statements : List Statement} (hdirect : current.Direct statements) :
    Guarded definedTables.step definedTables.guard statements current.tables := by
  have hwhole : Guarded step (fun s schema => definedTables.guard s schema.tables)
      statements current := by
    rw [guarded_iff]
    intro before s after reached hsplit hrun table t halters ht
    cases s with
    | addPrimaryKey table' column =>
      obtain rfl := Option.some.inj halters
      intro key c hc
      exact beq_false_of_ne (hdirect.primary_free hsplit hrun t ht key c hc)
    | _ => trivial
  exact tablesPart.guarded_lift hwhole

/-- The replay of a direct plan leaves the schema settled. -/
theorem replay_plan {database : String} (htarget : target.WellFormed)
    (hcurrent : current.WellFormed) (hdirect : current.Direct (target.plan current database)) :
    current.replay (target.plan current database) = some (target.settled current database) ∧
      ∀ key t, (target.settled current database).tables.get? key = some t →
        definedColumns.OnePrimary t.columns := by
  have hview : definedTables.view current = current.tables := Keyed.mapValues_id _
  have hrests : tablesPart.rests (target.tablePlan current)
      (tablesPart.rests (target.defaultsStatement current database) current)
        = tablesPart.rests (target.defaultsStatement current database) current := by
    refine tablesPart.rests_eq_self fun s hs => ?_
    cases s with
    | alterDatabase =>
      exact absurd rfl (ne_alterDatabase_of_mem_tablePlan htarget hcurrent hs _ _ _)
    | _ => rfl
  obtain ⟨hrun, hone⟩ := TableModel.run_plan htarget hcurrent
    (fits_settled htarget hcurrent hdirect) database (by rw [hview]; exact hdirect.guarded)
  rw [hview] at hrun
  refine ⟨?_, hone⟩
  rw [replay, step, tablesPart.run_lift, plan_eq, tablesPart.rests_append, hrests, ← plan_eq]
  exact congrArg (Option.map _) hrun

/-- The settled schema is well-formed. -/
theorem WellFormed.settled {database : String} (htarget : target.WellFormed)
    (hcurrent : current.WellFormed)
    (hone : ∀ key t, (target.settled current database).tables.get? key = some t →
      definedColumns.OnePrimary t.columns) :
    (target.settled current database).WellFormed := by
  have htable : ∀ {key : String} {v : Table},
      (target.settled current database).tables.get? key = some v →
        v.name = key ∧ v.WellFormed := by
    intro key v hv
    have hv' : definedColumns.OnePrimary v.columns := hone key v hv
    obtain ⟨t, ht, rfl⟩ := Keyed.get?_mapValues_eq_some_iff.1 hv
    cases hu : current.tables.get? key with
    | none => exact ⟨htarget.table_name ht, htarget.table ht⟩
    | some u =>
      rw [hu] at hv'
      exact ⟨(hcurrent.table_name hu :), (htarget.table ht).settled (hcurrent.table hu) hv'⟩
  exact ⟨fun hv => (htable hv).1, fun hv => (htable hv).2⟩

/-- The settled schema agrees with its target. -/
theorem agrees_settled (target current : Schema) (database : String) :
    target.Agrees (target.settled current database) := by
  refine ⟨?_, (Keyed.keys_mapValues _ _).symm, fun {key t v} ht hv => ?_⟩
  · cases hdefaults : target.defaultsStatement current database with
    | nil =>
      rw [settled, hdefaults]
      exact defaultsStatement_eq_nil_iff.1 hdefaults
    | cons s rest =>
      rw [settled, hdefaults]
      unfold defaultsStatement at hdefaults
      split at hdefaults
      · obtain ⟨rfl, rfl⟩ := List.cons.inj hdefaults
        exact .inr ⟨rfl, rfl⟩
      · exact nomatch hdefaults
  · obtain rfl := Option.some.inj ((get?_settled ht).symm.trans hv)
    cases current.tables.get? key with
    | none => exact .refl t
    | some u => exact t.agrees_settled u

end Schema

/-- Between two valid schemas whose plan is direct, the plan can be replayed, the
schema that it leads to is valid, and there is nothing left to change. -/
theorem diff_converges {target current : Schema} {database : String}
    (htarget : target.validate = .ok ()) (hcurrent : current.validate = .ok ())
    (hdirect : current.Direct (target.plan current database)) :
    target.diff current database
        = .ok (.ofStatements database (target.plan current database)) ∧
      ∃ replayed, current.replay (target.plan current database) = some replayed ∧
        replayed.validate = .ok () ∧
        target.diff replayed database = .ok { database := database } := by
  have htarget' := (Schema.validate_eq_ok_iff target).1 htarget
  have hcurrent' := (Schema.validate_eq_ok_iff current).1 hcurrent
  obtain ⟨hreplay, hone⟩ := Schema.replay_plan htarget' hcurrent' hdirect
  have hsettled := htarget'.settled hcurrent' hone
  exact ⟨Schema.diff_of_wellFormed htarget' hcurrent' database,
    target.settled current database, hreplay, (Schema.validate_eq_ok_iff _).2 hsettled,
    Schema.diff_of_agrees htarget' hsettled (target.agrees_settled current database) database⟩

/-- A library: its books and its readers. -/
def library : Schema where
  tables := .ofList [
    ("book", { name := "book", columns := .ofList [
      ("id", { name := "id", dataType := "int" }),
      ("title", { name := "title", dataType := "text" })] }),
    ("reader", { name := "reader", columns := .ofList [
      ("mail", { name := "mail", dataType := "varchar", columnKey := .unique }),
      ("nick", { name := "nick", dataType := "char" })] })]

/-- The library with a primary key, another character set, a renamed column, a
new column and another index. -/
def nextLibrary : Schema where
  tables := .ofList [
    ("book", { name := "book", columns := .ofList [
      ("id", { name := "id", dataType := "int", columnKey := .primary }),
      ("title", { name := "title", dataType := "text" })] }),
    ("reader", { name := "reader", characterSet := "utf8mb4", columns := .ofList [
      ("alias", { name := "alias", dataType := "char" }),
      ("joined", { name := "joined", dataType := "date", columnKey := .multiple }),
      ("mail", { name := "mail", dataType := "varchar", columnKey := .multiple })] })]

theorem plan_nextLibrary : nextLibrary.plan library "loans" = [
    .addPrimaryKey "book" "id",
    .convertTable "reader" "utf8mb4" "",
    .changeColumn "reader" "nick" { name := "alias", dataType := "char" },
    .addColumn "reader" { name := "joined", dataType := "date", columnKey := .multiple },
    .addIndex .plain "reader" "joined",
    .dropIndex .unique "reader" "mail",
    .addIndex .plain "reader" "mail"] := by
  decide +kernel

theorem direct_nextLibrary : library.Direct (nextLibrary.plan library "loans") := by
  rw [plan_nextLibrary]
  constructor
  · simp
  · intro table old c d t hchange hne ht hd
    simp only [List.mem_cons, reduceCtorEq, Statement.changeColumn.injEq, List.not_mem_nil,
      false_or, or_false] at hchange
    obtain ⟨rfl, rfl, rfl⟩ := hchange
    have hkey : ((library.tables.get? "reader").bind fun t => t.columns.get? "nick").map
        (·.columnKey) = some .none := by decide +kernel
    rw [ht, Option.bind_some, hd] at hkey
    exact Option.some.inj hkey
  · intro table c hadd
    simp only [List.mem_cons, reduceCtorEq, Statement.addColumn.injEq, List.not_mem_nil,
      false_or, or_false] at hadd
    obtain ⟨rfl, rfl⟩ := hadd
    decide
  · intro before after table column reached hsplit hrun t ht key c hc
    cases before with
    | nil =>
      simp only [List.nil_append, List.cons.injEq, Statement.addPrimaryKey.injEq] at hsplit
      obtain ⟨⟨rfl, rfl⟩, -⟩ := hsplit
      obtain rfl := Option.some.inj hrun
      have hfree : (library.tables.get? "book").all (fun t =>
          t.columns.entries.all fun e => e.2.columnKey != .primary) = true := by decide +kernel
      rw [ht, Option.all_some, List.all_eq_true] at hfree
      exact bne_iff_ne.1 (hfree _ (Keyed.get?_eq_some_iff.1 hc))
    | cons s before =>
      rw [List.cons_append, List.cons.injEq] at hsplit
      have hlater : Statement.addPrimaryKey table column ∈ before ++ .addPrimaryKey table column
          :: after := by simp
      rw [← hsplit.2] at hlater
      simp at hlater

theorem diff_converges_library :
    (nextLibrary.validate = .ok () ∧ library.validate = .ok () ∧
      library.Direct (nextLibrary.plan library "loans")) ∧
    nextLibrary.diff library "loans"
        = .ok (.ofStatements "loans" (nextLibrary.plan library "loans")) ∧
      ∃ replayed, library.replay (nextLibrary.plan library "loans") = some replayed ∧
        replayed.validate = .ok () ∧
        nextLibrary.diff replayed "loans" = .ok { database := "loans" } :=
  ⟨⟨by decide +kernel, by decide +kernel, direct_nextLibrary⟩,
    diff_converges (by decide +kernel) (by decide +kernel) direct_nextLibrary⟩

end SchemaPlan
