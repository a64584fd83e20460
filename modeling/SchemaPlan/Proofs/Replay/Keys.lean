import SchemaPlan.Proofs.Replay.Definitions
import SchemaPlan.Proofs.Soundness
set_option autoImplicit false

/-!
# Replaying the keys of columns

Here a table is seen as nothing but its columns with their keys.  A plan can always
be replayed on keys, also where a server would refuse a second primary key; what it
does to them is found by comparing the replay with one that never takes a primary
key away.  `diff_introduced_keys` says with which key a column comes into a table
on both sides: with that of its definition if it is added, except that an added
column never gets the primary key, and with the key that it had if it is renamed.
-/

namespace SchemaPlan

open Replay

/-! ## Replays of keys -/

/-- A replay of columns that keeps their keys. -/
def keyColumns : ColumnModel ColumnKey where
  ofColumn c := c.columnKey
  add _ := .none
  change _ key := key
  setKey key _ := key
  isPrimary key := key == .primary
  isPrimary_ofColumn := .inl fun _ => rfl
  isPrimary_add _ := rfl
  isPrimary_change _ _ := rfl
  isPrimary_setKey h := beq_iff_eq.1 h

/-- The same replay, except that a primary key is never taken away. -/
def stickyKeys : ColumnModel ColumnKey where
  ofColumn c := c.columnKey
  add _ := .none
  change _ key := key
  setKey key _ := key
  isPrimary _ := false
  isPrimary_ofColumn := .inr fun _ => rfl
  isPrimary_add _ := rfl
  isPrimary_change _ _ := rfl
  isPrimary_setKey h := Bool.noConfusion h

namespace StickyKeys

/-- Two replays of the keys of columns differ in nothing but primary keys that only
one of them has taken away. -/
def Clears (sticky keys : Keyed ColumnKey) : Prop :=
  ∀ column, keys.get? column = sticky.get? column ∨
    (sticky.get? column = some .primary ∧ keys.get? column = some .none)

variable {sticky sticky' keys keys' : Keyed ColumnKey}

theorem Clears.refl : Clears keys keys := fun _ => .inl rfl

theorem Clears.insert (h : Clears sticky keys) (column : String) (key : ColumnKey) :
    Clears (sticky.insert column key) (keys.insert column key) := by
  intro other
  rw [Keyed.get?_insert, Keyed.get?_insert]
  split
  · exact .inl rfl
  · exact h other

theorem Clears.erase (h : Clears sticky keys) (column : String) :
    Clears (sticky.erase column) (keys.erase column) := by
  intro other
  rw [Keyed.get?_erase, Keyed.get?_erase]
  split
  · exact .inl rfl
  · exact h other

theorem Clears.move (h : Clears sticky keys) {old new : String} {first second : ColumnKey}
    (hfirst : sticky.get? old = some first) (hsecond : keys.get? old = some second) :
    Clears ((sticky.erase old).insert new first) ((keys.erase old).insert new second) := by
  intro other
  rw [Keyed.get?_insert, Keyed.get?_insert]
  split
  · rw [← hfirst, ← hsecond]
    exact h old
  · exact h.erase old other

theorem Clears.clear (h : Clears sticky keys) :
    Clears sticky (keys.mapValues fun _ key => keyColumns.clear key) := by
  intro column
  rw [Keyed.get?_mapValues]
  rcases h column with heq | ⟨hprimary, hnone⟩
  · rw [heq]
    cases hkey : sticky.get? column with
    | none => exact .inl rfl
    | some key => cases key <;> simp [ColumnModel.clear, keyColumns]
  · rw [hnone]
    exact .inr ⟨hprimary, rfl⟩

theorem Clears.rekey (h : Clears sticky keys) {column : String} {key : ColumnKey}
    (hsticky : stickyKeys.rekey column key sticky = some sticky')
    (hkeys : keyColumns.rekey column key keys = some keys') : Clears sticky' keys' := by
  obtain ⟨_, -, rfl⟩ := Option.map_eq_some_iff.1 hsticky
  obtain ⟨_, -, rfl⟩ := Option.map_eq_some_iff.1 hkeys
  exact h.insert column key

theorem Clears.step (h : Clears sticky keys) {s : Statement}
    (hsticky : stickyKeys.step s sticky = some sticky')
    (hkeys : keyColumns.step s keys = some keys') : Clears sticky' keys' := by
  cases s with
  | addColumn table c =>
    rw [ColumnModel.step, Option.ite_none_left_eq_some] at hsticky hkeys
    obtain rfl := Option.some.inj hsticky.2
    obtain rfl := Option.some.inj hkeys.2
    exact h.insert c.name .none
  | dropColumn table column =>
    rw [ColumnModel.step, Option.ite_none_right_eq_some] at hsticky hkeys
    obtain rfl := Option.some.inj hsticky.2
    obtain rfl := Option.some.inj hkeys.2
    exact h.erase column
  | changeColumn table old c =>
    obtain ⟨first, hfirst, hsticky⟩ := Option.bind_eq_some_iff.1 hsticky
    obtain ⟨second, hsecond, hkeys⟩ := Option.bind_eq_some_iff.1 hkeys
    rw [Option.ite_none_left_eq_some] at hsticky hkeys
    obtain rfl := Option.some.inj hsticky.2
    obtain rfl := Option.some.inj hkeys.2
    exact h.move hfirst hsecond
  | addIndex kind table column => exact h.rekey hsticky hkeys
  | dropIndex kind table column => exact h.rekey hsticky hkeys
  | addPrimaryKey table column => exact h.rekey hsticky hkeys
  | dropPrimaryKey table =>
    obtain rfl := Option.some.inj hkeys
    obtain rfl := Option.some.inj hsticky
    have hstay : (sticky.mapValues fun _ key => stickyKeys.clear key) = sticky :=
      Keyed.mapValues_id sticky
    rw [hstay]
    exact h.clear
  | _ =>
    obtain rfl := Option.some.inj hkeys
    obtain rfl := Option.some.inj hsticky
    exact h

theorem Clears.run (h : Clears sticky keys) {statements : List Statement}
    (hsticky : run stickyKeys.step statements sticky = some sticky')
    (hkeys : run keyColumns.step statements keys = some keys') : Clears sticky' keys' := by
  induction statements generalizing sticky keys with
  | nil =>
    obtain rfl := Option.some.inj hsticky
    obtain rfl := Option.some.inj hkeys
    exact h
  | cons s rest ih =>
    obtain ⟨nextSticky, hs, hsticky⟩ := Option.bind_eq_some_iff.1 hsticky
    obtain ⟨nextKeys, hk, hkeys⟩ := Option.bind_eq_some_iff.1 hkeys
    exact ih (h.step hs hk) hsticky hkeys

/-- Without a statement that takes a primary key away the two replays are one. -/
theorem run_eq {statements : List Statement} (h : ∀ table, .dropPrimaryKey table ∉ statements)
    (keys : Keyed ColumnKey) :
    run stickyKeys.step statements keys = run keyColumns.step statements keys := by
  induction statements generalizing keys with
  | nil => rfl
  | cons s rest ih =>
    have hstep : stickyKeys.step s keys = keyColumns.step s keys := by
      cases s with
      | dropPrimaryKey table => exact absurd List.mem_cons_self (h table)
      | _ => rfl
    have hrest : ∀ table, .dropPrimaryKey table ∉ rest :=
      fun table hmem => h table (List.mem_cons_of_mem _ hmem)
    rw [run, run, hstep, funext (ih hrest)]

end StickyKeys

/-! ## The keys of introduced columns -/

namespace Table

/-- The plan of a table takes a primary key away only from a column on both sides. -/
theorem of_dropPrimaryKey_mem_plan {target current : Table} {table : String}
    (h : .dropPrimaryKey table ∈ target.plan current) :
    ∃ pair ∈ target.columns.common current.columns, pair.2.columnKey = .primary := by
  cases plans_of_mem h with
  | dropsPrimary hpair hold => exact ⟨_, hpair, hold⟩

end Table

namespace StickyKeys

variable {target current : Table} {keys : Keyed ColumnKey}

/-- Where the plan of a table leads if no primary key is taken away. -/
theorem exists_run_plan (htarget : target.WellFormed) (hcurrent : current.WellFormed) :
    ∃ sticky, stickyKeys.Fits target current sticky ∧
      run stickyKeys.step (target.plan current) (keyColumns.view current) = some sticky := by
  obtain ⟨sticky, hfits⟩ := stickyKeys.exists_fits target current
  refine ⟨sticky, hfits, (ColumnModel.run_plan htarget hcurrent hfits ?_).1⟩
  refine guarded_of_forall (fun s _ _ => ?_) _
  cases s with
  | addPrimaryKey => exact fun _ _ _ => rfl
  | _ => trivial

/-- A column that is added comes with the key of its definition, the primary key
excepted. -/
theorem get?_of_mem_new (htarget : target.WellFormed) (hcurrent : current.WellFormed)
    (hrun : run keyColumns.step (target.plan current) (keyColumns.view current) = some keys)
    {new : String × Column} (hnew : new ∈ (target.columnPairing current).new) :
    keys.get? new.1
      = some (if new.2.columnKey = .primary then .none else new.2.columnKey) := by
  obtain ⟨sticky, hfits, hsticky⟩ := exists_run_plan htarget hcurrent
  have hadded : sticky.get? new.1
      = some (if new.2.columnKey = .primary then .none else new.2.columnKey) := by
    rw [hfits.added hnew]
    cases new.2.columnKey <;> rfl
  rcases Clears.refl.run hsticky hrun new.1 with heq | ⟨hprimary, -⟩
  · rw [heq, hadded]
  · rw [hadded] at hprimary
    split at hprimary <;> simp_all

/-- A column that is renamed keeps its key. -/
theorem get?_of_mem_pairs (htarget : target.WellFormed) (hcurrent : current.WellFormed)
    (hrun : run keyColumns.step (target.plan current) (keyColumns.view current) = some keys)
    {pair : (String × Column) × (String × Column)}
    (hpair : pair ∈ (target.columnPairing current).pairs) :
    keys.get? pair.2.1 = some pair.1.2.columnKey := by
  obtain ⟨sticky, hfits, hsticky⟩ := exists_run_plan htarget hcurrent
  have hrenamed : sticky.get? pair.2.1 = some pair.1.2.columnKey := hfits.renamed hpair
  by_cases hprimary : pair.1.2.columnKey = .primary
  · -- no other column carries the primary key, so none is taken away
    have hnone : ∀ table, .dropPrimaryKey table ∉ target.plan current := by
      intro table hmem
      obtain ⟨⟨c, d⟩, hcommon, hd⟩ := Table.of_dropPrimaryKey_mem_plan hmem
      obtain ⟨key, hc, hget⟩ := Keyed.mem_common.1 hcommon
      obtain ⟨⟨hold, hfree⟩, -⟩ := lookups_of_mem_pairs hpair
      obtain rfl := hcurrent.primary_unique hold hget hprimary hd
      exact nomatch hc.symm.trans hfree
    rw [run_eq hnone, hrun] at hsticky
    rw [Option.some.inj hsticky, hrenamed]
  · rcases Clears.refl.run hsticky hrun pair.2.1 with heq | ⟨hsome, -⟩
    · rw [heq, hrenamed]
    · exact absurd (Option.some.inj (hrenamed.symm.trans hsome)) hprimary

end StickyKeys

/-! ## Schemas -/

/-- A replay of tables that keeps their columns with their keys. -/
def keyTables : TableModel (Keyed ColumnKey) where
  ofTable := keyColumns.view
  create t := t.columns.mapValues fun _ c => c.bare.columnKey
  rename _ keys := keys
  alter := keyColumns.step
  requires _ _ := True
  inv _ := True
  inv_ofTable _ := trivial
  inv_rename _ := trivial

/-- The keys of the columns of each table. -/
abbrev KeySets := Keyed (Keyed ColumnKey)

namespace Schema

/-- The keys of the columns of a schema. -/
def keySets (schema : Schema) : KeySets := keyTables.view schema

/-- The definition of a column. -/
def column? (schema : Schema) (table column : String) : Option Column :=
  (schema.tables.get? table).bind fun t => t.columns.get? column

end Schema

namespace KeySets

/-- The keys after some statements. -/
def replay (sets : KeySets) (statements : List Statement) : Option KeySets :=
  run keyTables.step statements sets

/-- The key of a column. -/
def key? (sets : KeySets) (table column : String) : Option ColumnKey :=
  (sets.get? table).bind fun keys => keys.get? column

end KeySets

/-- A plan leads to the keys to which the plan of each table on both sides leads. -/
theorem replay_keySets_plan {target current : Schema} (htarget : target.WellFormed)
    (hcurrent : current.WellFormed) (database : String) :
    ∃ last, current.keySets.replay (target.plan current database) = some last ∧
      keyTables.Fits target current last := by
  obtain ⟨last, hfits⟩ : ∃ last, keyTables.Fits target current last := by
    refine TableModel.exists_fits (fun ht hu => ?_) fun ht => ⟨trivial, ?_⟩
    · obtain ⟨keys, hkeys, -⟩ :=
        keyColumns.exists_run_plan (htarget.table ht) (hcurrent.table hu)
      exact ⟨keys, hkeys, trivial⟩
    · obtain ⟨keys, hkeys, -⟩ :=
        keyColumns.exists_run_indexes (htarget.table ht) fun c => c.bare.columnKey
      exact ⟨keys, hkeys, trivial⟩
  exact ⟨last, (TableModel.run_plan htarget hcurrent hfits database
    (guarded_of_forall (fun _ _ _ _ _ _ _ => trivial) _)).1, hfits⟩

/-- With which keys statements bring columns into tables. -/
structure IntroducedKeys (target current : Schema) (statements : List Statement)
    (sets : KeySets) : Prop where
  added : ∀ {table : String} {c : Column}, .addColumn table c ∈ statements →
    target.column? table c.name = some c ∧
      sets.key? table c.name = some (if c.columnKey = .primary then .none else c.columnKey)
  renamed : ∀ {table old : String} {c : Column}, .changeColumn table old c ∈ statements →
    c.name ≠ old → target.column? table c.name = some c ∧
      ∃ d, current.column? table old = some d ∧ sets.key? table c.name = some d.columnKey

theorem introducedKeys_plan {target current : Schema} (htarget : target.WellFormed)
    (hcurrent : current.WellFormed) {database : String} {last : KeySets}
    (hfits : keyTables.Fits target current last) :
    IntroducedKeys target current (target.plan current database) last where
  added {table c} h := by
    obtain ⟨t, u, ht, hu, h⟩ := Schema.exists_of_alters htarget hcurrent h rfl (by simp)
    obtain rfl := htarget.table_name ht
    obtain ⟨new, hnew, rfl⟩ := Table.addColumn_mem_plan_iff.1 h
    obtain ⟨keys, hkeys, hrun⟩ := hfits.shared ht hu
    have hthere := (lookups_of_mem_new hnew).1
    have hkey := StickyKeys.get?_of_mem_new (htarget.table ht) (hcurrent.table hu)
      (hrun (guarded_of_forall (fun _ _ _ => trivial) _)).1 hnew
    have hname := (htarget.table ht).column_name hthere
    rw [Schema.column?, KeySets.key?, ht, hkeys, hname]
    exact ⟨hthere, hkey⟩
  renamed {table old c} h hne := by
    obtain ⟨t, u, ht, hu, h⟩ := Schema.exists_of_alters htarget hcurrent h rfl (by simp)
    obtain rfl := htarget.table_name ht
    obtain ⟨pair, hpair, rfl, rfl⟩ := (Table.changeColumn_mem_plan_iff hne).1 h
    obtain ⟨keys, hkeys, hrun⟩ := hfits.shared ht hu
    obtain ⟨⟨hold, -⟩, hthere, -⟩ := lookups_of_mem_pairs hpair
    have hkey := StickyKeys.get?_of_mem_pairs (htarget.table ht) (hcurrent.table hu)
      (hrun (guarded_of_forall (fun _ _ _ => trivial) _)).1 hpair
    have hname := (htarget.table ht).column_name hthere
    rw [Schema.column?, KeySets.key?, ht, hkeys, hname]
    refine ⟨hthere, pair.1.2, ?_, hkey⟩
    rw [Schema.column?, hu]
    exact hold

/-- Between two valid schemas there is a comparison: it lists the plan, and the plan can
be replayed on keys and introduces columns with the keys of `IntroducedKeys`. -/
theorem diff_introduced_keys {target current : Schema} (htarget : target.validate = .ok ())
    (hcurrent : current.validate = .ok ()) (database : String) :
    target.diff current database
        = .ok (.ofStatements database (target.plan current database)) ∧
      ∃ last, current.keySets.replay (target.plan current database) = some last ∧
        IntroducedKeys target current (target.plan current database) last := by
  have htarget' := (Schema.validate_eq_ok_iff target).1 htarget
  have hcurrent' := (Schema.validate_eq_ok_iff current).1 hcurrent
  obtain ⟨last, hreplay, hfits⟩ := replay_keySets_plan htarget' hcurrent' database
  exact ⟨Schema.diff_of_wellFormed htarget' hcurrent' database, last, hreplay,
    introducedKeys_plan htarget' hcurrent' hfits⟩

/-- A journal: its entries. -/
def journal : Schema where
  tables := .ofList [
    ("entry", { name := "entry", columns := .ofList [
      ("note", { name := "note", dataType := "text" }),
      ("zip", { name := "zip", dataType := "varchar" })] })]

/-- The journal with a new primary key, a column renamed that gets an index, and a
new column with an index. -/
def nextJournal : Schema where
  tables := .ofList [
    ("entry", { name := "entry", columns := .ofList [
      ("code", { name := "code", dataType := "varchar", columnKey := .unique }),
      ("id", { name := "id", dataType := "int", columnKey := .primary }),
      ("note", { name := "note", dataType := "text" }),
      ("size", { name := "size", dataType := "bigint", columnKey := .multiple })] })]

theorem diff_introduced_keys_journal :
    (nextJournal.validate = .ok () ∧ journal.validate = .ok ()) ∧
      nextJournal.diff journal "j" = .ok (.ofStatements "j" (nextJournal.plan journal "j")) ∧
      ∃ last, journal.keySets.replay (nextJournal.plan journal "j") = some last ∧
        IntroducedKeys nextJournal journal (nextJournal.plan journal "j") last :=
  ⟨by decide +kernel, diff_introduced_keys (by decide +kernel) (by decide +kernel) "j"⟩

/-- Of the columns that come into the journal only the one that is added with an index
has the key of its definition: the primary key is not added, and a renamed column
gets no index. -/
theorem journal_misses_keys :
    (journal.keySets.replay (nextJournal.plan journal "j")).map
        (fun sets => ["code", "id", "size"].map (sets.key? "entry"))
      = some [some .none, some .none, some .multiple] ∧
    ["code", "id", "size"].map (fun column =>
        (nextJournal.column? "entry" column).map (·.columnKey))
      = [some .unique, some .primary, some .multiple] := by
  decide +kernel

end SchemaPlan
