import Mathlib.Data.List.Sort
import SchemaPlan.Proofs.Replay.ColumnPlan
set_option autoImplicit false

/-!
# Replaying the plan of a schema

A statement either alters one table or is about the tables themselves.  A
`TableModel` says what a replay keeps of a table and what an alteration does to
it; the tables of a schema are then replayed as a map.  `run_plan` says where the
plan of a schema leads, given where the plans of its tables lead.
-/

namespace SchemaPlan

namespace Replay

/-! ## Tables as they are replayed -/

/-- What a replay keeps of a table, and how statements change it. -/
structure TableModel (σ : Type) where
  /-- A table that is already there. -/
  ofTable : Table → σ
  /-- A table that is created. -/
  create : Table → σ
  /-- A table that gets a new name. -/
  rename : String → σ → σ
  /-- What a statement does to the table that it alters. -/
  alter : Statement → σ → Option σ
  /-- What has to hold of a table before a statement alters it. -/
  requires : Statement → σ → Prop
  /-- What holds of every table all along. -/
  inv : σ → Prop
  inv_ofTable : ∀ {table : Table}, table.WellFormed → inv (ofTable table)
  inv_rename : ∀ {name : String} {v : σ}, inv v → inv (rename name v)

namespace TableModel

variable {σ : Type} (m : TableModel σ)

/-- The tables of a schema as the model keeps them. -/
def view (schema : Schema) : Keyed σ := schema.tables.mapValues fun _ t => m.ofTable t

/-- What a statement does to the tables; `none` if a table it names is not
there, or one it brings in is there already. -/
def step : Statement → Keyed σ → Option (Keyed σ)
  | .alterDatabase .., tables => some tables
  | .createTable t, tables =>
    if tables.contains t.name then none else some (tables.insert t.name (m.create t))
  | .dropTable table, tables =>
    if tables.contains table then some (tables.erase table) else none
  | .renameTable old new, tables =>
    (tables.get? old).bind fun v =>
      if tables.contains new then none
      else some ((tables.erase old).insert new (m.rename new v))
  | s, tables =>
    s.alters?.bind fun table =>
      (tables.get? table).bind fun v => (m.alter s v).map (tables.insert table)

/-- What has to hold before a statement. -/
def guard (s : Statement) (tables : Keyed σ) : Prop :=
  ∀ table v, s.alters? = some table → tables.get? table = some v → m.requires s v

/-- What holds of the tables all along. -/
def Inv (tables : Keyed σ) : Prop := ∀ key v, tables.get? key = some v → m.inv v

/-- The rules of the replay. -/
def rules : Rules σ := ⟨m.step, m.guard, m.Inv⟩

variable {m}

theorem Inv.insert {tables : Keyed σ} (h : m.Inv tables) (table : String) {v : σ}
    (hv : m.inv v) : m.Inv (tables.insert table v) := by
  intro key w hw
  obtain ⟨-, rfl⟩ | ⟨-, hw⟩ := Keyed.get?_insert_eq_some_iff.1 hw
  · exact hv
  · exact h key w hw

theorem Inv.erase {tables : Keyed σ} (h : m.Inv tables) (table : String) :
    m.Inv (tables.erase table) := by
  intro key w hw
  exact h key w (Keyed.get?_erase_eq_some_iff.1 hw).2

theorem step_of_alters {s : Statement} {table : String} (h : s.alters? = some table)
    (tables : Keyed σ) : m.step s tables =
      (tables.get? table).bind fun v => (m.alter s v).map (tables.insert table) := by
  cases s <;> cases h <;> rfl

/-! ## What each block establishes -/

section Blocks

variable {block : List Statement} {table : String} {v w : σ} {tables : Keyed σ}

/-- Statements that alter one table are run on that table alone. -/
theorem run_alter (hblock : ∀ s ∈ block, s.alters? = some table)
    (hget : tables.get? table = some v) :
    run m.step block tables = (run m.alter block v).map (tables.insert table) := by
  induction block generalizing v tables with
  | nil => rw [run_nil, run_nil, Option.map_some, Keyed.insert_of_get? hget]
  | cons s rest ih =>
    rw [run, run, step_of_alters (hblock s List.mem_cons_self), hget, Option.bind_some]
    cases hs : m.alter s v with
    | none => rfl
    | some next =>
      rw [Option.map_some, Option.bind_some, Option.bind_some,
        ih (fun t ht => hblock t (List.mem_cons_of_mem _ ht)) (Keyed.get?_insert_self _ _ _)]
      cases run m.alter rest next with
      | none => rfl
      | some last => rw [Option.map_some, Option.map_some, Keyed.insert_insert]

/-- What has to hold along the run holds of the altered table. -/
theorem guarded_alter (hblock : ∀ s ∈ block, s.alters? = some table)
    (hget : tables.get? table = some v) (hguard : Guarded m.step m.guard block tables) :
    Guarded m.alter m.requires block v := by
  induction block generalizing v tables with
  | nil => trivial
  | cons s rest ih =>
    have hs := hblock s List.mem_cons_self
    refine ⟨hguard.1 table v hs hget, fun next hnext => ?_⟩
    refine ih (fun t ht => hblock t (List.mem_cons_of_mem _ ht))
      (Keyed.get?_insert_self tables table next) (hguard.2 _ ?_)
    rw [step_of_alters hs, hget, Option.bind_some, hnext, Option.map_some]

/-- Statements that alter one table bring it where they bring it alone. -/
theorem establishes_alter (hblock : ∀ s ∈ block, s.alters? = some table)
    (hrun : m.inv v → Guarded m.alter m.requires block v →
      run m.alter block v = some w ∧ m.inv w) :
    Establishes m.rules block [table] (fun _ => some v) fun _ => some w := by
  refine .of_insert fun tables hinv hguard hget => ?_
  obtain ⟨hw, hinvw⟩ := hrun (hinv table v hget) (guarded_alter hblock hget hguard)
  refine ⟨?_, Inv.insert hinv table hinvw⟩
  rw [rules, run_alter hblock hget, hw, Option.map_some]

/-- A renamed table leaves its old name and stands under the new one. -/
theorem establishes_rename {old new : String} {start final : String → Option σ}
    (hne : new ≠ old) (hold : start old = some v) (hnew : start new = none)
    (hgone : final old = none) (hthere : final new = some (m.rename new v)) :
    Establishes m.rules [.renameTable old new] [old, new] start final := by
  refine .of_move hne hold hnew hgone hthere fun tables hinv hget hfree => ⟨?_, ?_⟩
  · simp [run_singleton, rules, step, hget, Keyed.contains_of_get?_none hfree]
  · exact (Inv.erase hinv old).insert new (m.inv_rename (hinv old v hget))

theorem establishes_drop :
    Establishes m.rules [.dropTable table] [table] (fun _ => some v) fun _ => none := by
  refine .of_erase fun tables hinv hget => ⟨?_, Inv.erase hinv table⟩
  simp [run_singleton, rules, step, Keyed.contains_of_get? hget]

/-- A table that is created without its indexes. -/
theorem establishes_createTable {t : Table} (hinv : m.inv (m.create t)) :
    Establishes m.rules [.createTable t] [t.name] (fun _ => none)
      fun _ => some (m.create t) := by
  refine .of_insert fun tables htables _ hget => ⟨?_, Inv.insert htables t.name hinv⟩
  simp [run_singleton, rules, step, Keyed.contains_of_get?_none hget]

/-- A table that is created with its indexes. -/
theorem establishes_creation {t : Table} (hinv : m.inv (m.create t))
    (hrun : run m.alter t.indexes (m.create t) = some w ∧ m.inv w) :
    Establishes m.rules t.creation [t.name] (fun _ => none) fun _ => some w :=
  (establishes_createTable hinv).seq
    (establishes_alter t.alters_indexes fun _ _ => hrun)

end Blocks

/-! ## Where a plan leads -/

/-- Where the plan of a schema is to lead: every table of the target is there,
as its statements leave it, and no other is. -/
structure Fits (m : TableModel σ) (target current : Schema) (final : Keyed σ) : Prop where
  shared : ∀ {key : String} {t u : Table}, target.tables.get? key = some t →
    current.tables.get? key = some u → ∃ w, final.get? key = some w ∧
      (Guarded m.alter m.requires (t.plan u) (m.ofTable u) →
        run m.alter (t.plan u) (m.ofTable u) = some w ∧ m.inv w)
  renamed : ∀ {gone new : String × Table}, (gone, new) ∈ (target.tablePairing current).pairs →
    final.get? new.1 = some (m.rename new.1 (m.ofTable gone.2))
  created : ∀ {new : String × Table}, new ∈ (target.tablePairing current).new →
    ∃ w, final.get? new.1 = some w ∧ m.inv (m.create new.2) ∧
      run m.alter new.2.indexes (m.create new.2) = some w ∧ m.inv w
  absent : ∀ {key : String}, key ∉ target.tables.keys → final.get? key = none

section Plan

variable {target current : Schema} {final : Keyed σ}

theorem get?_view {schema : Schema} {key : String} :
    (m.view schema).get? key = (schema.tables.get? key).map m.ofTable :=
  Keyed.get?_mapValues _ _ key

theorem get?_view_eq_some_iff {schema : Schema} {key : String} {v : σ} :
    (m.view schema).get? key = some v ↔
      ∃ t, schema.tables.get? key = some t ∧ m.ofTable t = v := by
  exact Keyed.get?_mapValues_eq_some_iff

/-- Where a plan leads a table `t` of the target: as a shared table, as a renamed one
or as a new one. -/
structure IsOutcome (m : TableModel σ) (target current : Schema) (key : String) (t : Table)
    (v : σ) : Prop where
  shared : ∀ {u : Table}, current.tables.get? key = some u →
    run m.alter (t.plan u) (m.ofTable u) = some v ∧ m.inv v
  renamed : ∀ {gone : String × Table}, (gone, (key, t)) ∈ (target.tablePairing current).pairs →
    v = m.rename key (m.ofTable gone.2)
  created : (key, t) ∈ (target.tablePairing current).new →
    run m.alter t.indexes (m.create t) = some v ∧ m.inv v

/-- A table is shared, renamed or created, and only one of the three, so what each
asks for can be had. -/
theorem exists_isOutcome (target : Schema) {key : String} {t : Table}
    (hshared : ∀ {u : Table}, current.tables.get? key = some u →
      ∃ w, run m.alter (t.plan u) (m.ofTable u) = some w ∧ m.inv w)
    (hcreated : ∃ w, run m.alter t.indexes (m.create t) = some w ∧ m.inv w) :
    ∃ v, IsOutcome m target current key t v := by
  have houtcome : ∃ v,
      (∀ u, current.tables.get? key = some u →
        run m.alter (t.plan u) (m.ofTable u) = some v ∧ m.inv v) ∧
      (∀ gone, (gone, (key, t)) ∈ (target.tablePairing current).pairs →
        v = m.rename key (m.ofTable gone.2)) ∧
      ((key, t) ∈ (target.tablePairing current).new →
        run m.alter t.indexes (m.create t) = some v ∧ m.inv v) :=
    exists_outcome (fun _ hu => hshared hu) (fun _ _ => ⟨_, rfl⟩) hcreated
  obtain ⟨v, hv, hrenamed, hnew⟩ := houtcome
  exact ⟨v, fun hu => hv _ hu, fun hgone => hrenamed _ hgone, hnew⟩

/-- A plan leads somewhere if the plan of each shared table and the indexes of each
new table do. -/
theorem exists_fits
    (hshared : ∀ {key : String} {t u : Table}, target.tables.get? key = some t →
      current.tables.get? key = some u →
        ∃ w, run m.alter (t.plan u) (m.ofTable u) = some w ∧ m.inv w)
    (hcreated : ∀ {key : String} {t : Table}, target.tables.get? key = some t →
      m.inv (m.create t) ∧ ∃ w, run m.alter t.indexes (m.create t) = some w ∧ m.inv w) :
    ∃ final, m.Fits target current final := by
  have houtcome : ∀ key t, ∃ v, target.tables.get? key = some t →
      IsOutcome m target current key t v := by
    intro key t
    by_cases ht : target.tables.get? key = some t
    · obtain ⟨v, hv⟩ := exists_isOutcome target (hshared ht) (hcreated ht).2
      exact ⟨v, fun _ => hv⟩
    · exact ⟨m.ofTable t, fun h => absurd h ht⟩
  choose value hvalue using houtcome
  have hget : ∀ {key t}, target.tables.get? key = some t →
      (target.tables.mapValues value).get? key = some (value key t) := by
    intro key t ht
    rw [Keyed.get?_mapValues, ht, Option.map_some]
  refine ⟨target.tables.mapValues value, fun ht hu => ?_, fun hpair => ?_, fun hnew => ?_,
    fun hkey => ?_⟩
  · exact ⟨_, hget ht, fun _ => (hvalue _ _ ht).shared hu⟩
  · have ht := (lookups_of_mem_pairs hpair).2.1
    rw [hget ht, (hvalue _ _ ht).renamed hpair]
  · have ht := (lookups_of_mem_new hnew).1
    exact ⟨_, hget ht, (hcreated ht).1, (hvalue _ _ ht).created hnew⟩
  · rw [Keyed.get?_mapValues, Keyed.get?_eq_none_iff.2 hkey]
    rfl

/-- The tables on both sides. -/
theorem establishes_common (htarget : target.WellFormed) (hcurrent : current.WellFormed)
    (hfits : m.Fits target current final) :
    Establishes m.rules
      ((target.tables.common current.tables).flatMap fun pair => pair.1.plan pair.2)
      (target.tables.keys.filter current.tables.contains) (m.view current).get? final.get? := by
  refine Establishes.flatMap_common Table.name htarget.table_name fun {t u} ht hu => ?_
  obtain ⟨w, hw, hrun⟩ := hfits.shared ht hu
  have hblock : ∀ s ∈ t.plan u, s.alters? = some t.name :=
    fun s hs => Table.alters_of_mem_plan (hcurrent.table_name hu) hs
  refine (establishes_alter (v := m.ofTable u) (w := w) hblock fun _ => hrun).congr_single ?_ hw
  rw [get?_view, hu]
  rfl

/-- The renamed tables. -/
theorem establishes_renamed (hfits : m.Fits target current final) :
    Establishes m.rules
      ((target.tablePairing current).pairs.flatMap fun pair => [.renameTable pair.1.1 pair.2.1])
      ((target.tablePairing current).pairs.flatMap fun pair => [pair.1.1, pair.2.1])
      (m.view current).get? final.get? := by
  have hnodup := (Pairing.nodup_parts (target.tablePairing_nodup current)).1
  refine Establishes.flatMap hnodup fun pair hpair => ?_
  obtain ⟨gone, new⟩ := pair
  obtain ⟨⟨hold, hnot⟩, hthere, hfree⟩ := lookups_of_mem_pairs hpair
  have hne : new.1 ≠ gone.1 := by
    intro heq
    rw [heq, hold] at hfree
    exact nomatch hfree
  exact establishes_rename hne (by rw [get?_view, hold]; rfl) (by rw [get?_view, hfree]; rfl)
    (hfits.absent (Keyed.get?_eq_none_iff.1 hnot)) (hfits.renamed hpair)

/-- The tables that go and are not renamed. -/
theorem establishes_dropped (hfits : m.Fits target current final) :
    Establishes m.rules
      ((target.tablePairing current).gone.flatMap fun gone => [.dropTable gone.1])
      ((target.tablePairing current).gone.map (·.1)) (m.view current).get? final.get? := by
  have hnodup := (Pairing.nodup_parts (target.tablePairing_nodup current)).2.1
  refine Establishes.flatMap_single hnodup fun gone hgone => ?_
  obtain ⟨hold, hnot⟩ := lookups_of_mem_gone hgone
  refine (establishes_drop (v := m.ofTable gone.2)).congr_single ?_
    (hfits.absent (Keyed.get?_eq_none_iff.1 hnot))
  rw [get?_view, hold]
  rfl

/-- The tables that come and are not renamed. -/
theorem establishes_created (htarget : target.WellFormed)
    (hfits : m.Fits target current final) :
    Establishes m.rules ((target.tablePairing current).new.flatMap fun new => new.2.creation)
      ((target.tablePairing current).new.map (·.1)) (m.view current).get? final.get? := by
  have hnodup := (Pairing.nodup_parts (target.tablePairing_nodup current)).2.2
  refine Establishes.flatMap_single hnodup fun new hnew => ?_
  obtain ⟨hthere, hfree⟩ := lookups_of_mem_new hnew
  obtain ⟨w, hw, hinv, hrun⟩ := hfits.created hnew
  have h := establishes_creation hinv hrun
  rw [htarget.table_name hthere] at h
  refine h.congr_single ?_ hw
  rw [get?_view, hfree]
  rfl

/-- The defaults of the database are no matter of its tables. -/
theorem establishes_defaults (target current : Schema) (database : String)
    (start last : String → Option σ) :
    Establishes m.rules (target.defaultsStatement current database) [] start last := by
  intro tables hinv _ _
  refine ⟨tables, ?_, hinv, by simp, fun _ _ => rfl⟩
  unfold Schema.defaultsStatement
  split <;> rfl

/-- The plan of a schema can be run on its tables, and leads where it is to lead. -/
theorem run_plan (htarget : target.WellFormed) (hcurrent : current.WellFormed)
    (hfits : m.Fits target current final) (database : String)
    (hguard : Guarded m.step m.guard (target.plan current database) (m.view current)) :
    run m.step (target.plan current database) (m.view current) = some final ∧
      m.Inv final := by
  have hplan : target.plan current database = target.defaultsStatement current database
      ++ (target.tables.common current.tables).flatMap (fun pair => pair.1.plan pair.2)
      ++ (target.tablePairing current).pairs.flatMap
        (fun pair => [.renameTable pair.1.1 pair.2.1])
      ++ (target.tablePairing current).gone.flatMap (fun gone => [.dropTable gone.1])
      ++ (target.tablePairing current).new.flatMap (fun new => new.2.creation) := by
    rw [Schema.plan, List.map_eq_flatMap, List.map_eq_flatMap]
  have hshared := (establishes_defaults (m := m) target current database (m.view current).get?
    final.get?).append (target.tables.keys_nodup.filter _)
      (establishes_common htarget hcurrent hfits)
  have hblocks := Establishes.append_append (target.planKeys_nodup current) hshared
    (establishes_renamed hfits) (establishes_dropped hfits) (establishes_created htarget hfits)
  rw [← hplan] at hblocks
  refine hblocks.run_eq (fun key v hv => ?_) hguard fun key hkey => ?_
  · rw [get?_view] at hv
    obtain ⟨t, ht, rfl⟩ := Option.map_eq_some_iff.1 hv
    exact m.inv_ofTable (hcurrent.table ht)
  · have hnot := mt Schema.mem_planKeys.2 hkey
    rw [not_or] at hnot
    rw [get?_view, Keyed.get?_eq_none_iff.2 hnot.2, hfits.absent hnot.1]
    rfl

end Plan

end TableModel

end Replay

end SchemaPlan
