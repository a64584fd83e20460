import Mathlib.Data.List.Sort
import SchemaPlan.Proofs.Listing
import SchemaPlan.Proofs.Replay.Columns
set_option autoImplicit false

/-!
# Replaying the plan of a table

The blocks of a plan for a table on both sides touch each column once: as one
half of a renaming, as dropped, as added or as shared.  So the plan runs, and
`run_plan` says where it leads: a renamed column goes through its new
definition, a new one comes with its index, a shared one goes through its own
statements, and nothing else is left.  `run_indexes` does the same for the
indexes that follow the creation of a table.
-/

namespace SchemaPlan

namespace Replay

namespace ColumnModel

variable {κ : Type} (m : ColumnModel κ)

/-! ## Where a plan leads -/

/-- Where the plan of a table is to lead: every column of the target is there,
as its statements leave it, and no other is. -/
structure Fits (target current : Table) (final : Keyed κ) : Prop where
  renamed : ∀ {gone new : String × Column}, (gone, new) ∈ (target.columnPairing current).pairs →
    final.get? new.1 = some (m.change new.2 (m.ofColumn gone.2))
  added : ∀ {new : String × Column}, new ∈ (target.columnPairing current).new →
    final.get? new.1 = some (m.effects
      (Statement.addIndexFor? target.name new.2.name new.2.columnKey).toList (m.add new.2))
  shared : ∀ {key : String} {c d : Column}, target.columns.get? key = some c →
    current.columns.get? key = some d →
      final.get? key = some (m.effects (target.sharedColumnStatements (c, d)) (m.ofColumn d))
  absent : ∀ {key : String}, key ∉ target.columns.keys → final.get? key = none

variable {m}

/-- There is a place for a plan to lead to. -/
theorem exists_fits (m : ColumnModel κ) (target current : Table) :
    ∃ final, m.Fits target current final := by
  have houtcome : ∀ key c, ∃ v,
      (∀ d, current.columns.get? key = some d →
        v = m.effects (target.sharedColumnStatements (c, d)) (m.ofColumn d)) ∧
      (∀ gone, (gone, (key, c)) ∈ (target.columnPairing current).pairs →
        v = m.change c (m.ofColumn gone.2)) ∧
      ((key, c) ∈ (target.columnPairing current).new →
        v = m.effects (Statement.addIndexFor? target.name c.name c.columnKey).toList
          (m.add c)) :=
    fun key c => exists_outcome (fun d _ => ⟨_, rfl⟩) (fun gone _ => ⟨_, rfl⟩) ⟨_, rfl⟩
  choose value hshared hrenamed hadded using houtcome
  have hget : ∀ {key c}, target.columns.get? key = some c →
      (target.columns.mapValues value).get? key = some (value key c) := by
    intro key c hc
    rw [Keyed.get?_mapValues, hc, Option.map_some]
  refine ⟨target.columns.mapValues value, fun hpair => ?_, fun hnew => ?_, fun hc hd => ?_,
    fun hkey => ?_⟩
  · rw [hget (lookups_of_mem_pairs hpair).2.1, hrenamed _ _ _ hpair]
  · rw [hget (lookups_of_mem_new hnew).1, hadded _ _ hnew]
  · rw [hget hc, hshared _ _ _ hd]
  · rw [Keyed.get?_mapValues, Keyed.get?_eq_none_iff.2 hkey]
    rfl

section Plan

variable {target current : Table} {final : Keyed κ}

theorem get?_view {table : Table} {key : String} :
    (m.view table).get? key = (table.columns.get? key).map m.ofColumn :=
  Keyed.get?_mapValues _ _ key

theorem get?_view_eq_some_iff {table : Table} {key : String} {v : κ} :
    (m.view table).get? key = some v ↔
      ∃ c, table.columns.get? key = some c ∧ m.ofColumn c = v := by
  exact Keyed.get?_mapValues_eq_some_iff

/-- The renamed columns of a table. -/
theorem establishes_renamed (htarget : target.WellFormed)
    (hfits : m.Fits target current final) :
    Establishes m.rules
      ((target.columnPairing current).pairs.flatMap fun pair =>
        [.changeColumn target.name pair.1.1 pair.2.2])
      ((target.columnPairing current).pairs.flatMap fun pair => [pair.1.1, pair.2.1])
      (m.view current).get? final.get? := by
  have hnodup := (Pairing.nodup_parts (target.columnPairing_nodup current)).1
  refine Establishes.flatMap hnodup fun pair hpair => ?_
  obtain ⟨gone, new⟩ := pair
  obtain ⟨⟨hold, hnot⟩, hthere, hfree⟩ := lookups_of_mem_pairs hpair
  have hname : new.2.name = new.1 := htarget.column_name hthere
  have hne : new.1 ≠ gone.1 := by
    intro heq
    rw [heq, hold] at hfree
    exact nomatch hfree
  have hlast := hfits.renamed hpair
  rw [← hname] at hne hfree hlast ⊢
  exact establishes_rename hne (by rw [get?_view, hold]; rfl) (by rw [get?_view, hfree]; rfl)
    (hfits.absent (Keyed.get?_eq_none_iff.1 hnot)) hlast

/-- The columns that go and are not renamed. -/
theorem establishes_dropped (hcurrent : current.WellFormed)
    (hfits : m.Fits target current final) :
    Establishes m.rules
      ((target.columnPairing current).gone.flatMap (target.dropColumnStatements current))
      ((target.columnPairing current).gone.map (·.1)) (m.view current).get? final.get? := by
  have hnodup := (Pairing.nodup_parts (target.columnPairing_nodup current)).2.1
  refine Establishes.flatMap_single hnodup fun gone hgone => ?_
  obtain ⟨hold, hnot⟩ := lookups_of_mem_gone hgone
  refine (establishes_gone (v := m.ofColumn gone.2) target current
    (hcurrent.column_name hold)).congr_single ?_ (hfits.absent (Keyed.get?_eq_none_iff.1 hnot))
  rw [get?_view, hold]
  rfl

/-- The columns that come and are not renamed. -/
theorem establishes_added (htarget : target.WellFormed) (hfits : m.Fits target current final) :
    Establishes m.rules ((target.columnPairing current).new.flatMap target.addColumnStatements)
      ((target.columnPairing current).new.map (·.1)) (m.view current).get? final.get? := by
  have hnodup := (Pairing.nodup_parts (target.columnPairing_nodup current)).2.2
  refine Establishes.flatMap_single hnodup fun new hnew => ?_
  obtain ⟨hthere, hfree⟩ := lookups_of_mem_new hnew
  have h := establishes_new (m := m) target new
  rw [htarget.column_name hthere] at h
  refine h.congr_single ?_ ?_
  · rw [get?_view, hfree]
    rfl
  · rw [hfits.added hnew, htarget.column_name hthere]

/-- The columns on both sides. -/
theorem establishes_common (htarget : target.WellFormed) (hfits : m.Fits target current final) :
    Establishes m.rules
      ((target.columns.common current.columns).flatMap target.sharedColumnStatements)
      (target.columns.keys.filter current.columns.contains)
      (m.view current).get? final.get? := by
  refine Establishes.flatMap_common Column.name htarget.column_name fun {c d} hc hd => ?_
  refine (establishes_shared (m := m) target c d).congr_single ?_ (hfits.shared hc hd)
  rw [get?_view, hd]
  rfl

/-- A conversion leaves the columns as they are. -/
theorem establishes_conversion (target current : Table) (start last : String → Option κ) :
    Establishes m.rules (target.conversion current) [] start last := by
  intro columns hinv _ _
  refine ⟨columns, ?_, hinv, by simp, fun _ _ => rfl⟩
  unfold Table.conversion
  split <;> rfl

/-- The plan of a table can be run on its columns, and leads where it is to lead. -/
theorem run_plan (htarget : target.WellFormed) (hcurrent : current.WellFormed)
    (hfits : m.Fits target current final)
    (hguard : Guarded m.step m.guard (target.plan current) (m.view current)) :
    run m.step (target.plan current) (m.view current) = some final ∧ m.OnePrimary final := by
  have hpairs := (Pairing.nodup_parts (target.columnPairing_nodup current)).1
  have hplan : target.plan current = target.conversion current
      ++ ((target.columnPairing current).pairs.flatMap fun pair =>
        [.changeColumn target.name pair.1.1 pair.2.2])
      ++ (target.columnPairing current).gone.flatMap (target.dropColumnStatements current)
      ++ (target.columnPairing current).new.flatMap target.addColumnStatements
      ++ (target.columns.common current.columns).flatMap target.sharedColumnStatements := by
    rw [Table.plan, List.map_eq_flatMap]
  have hrenamed := (establishes_conversion (m := m) target current (m.view current).get?
    final.get?).append hpairs (establishes_renamed htarget hfits)
  have hblocks := Establishes.append_append (target.planKeys_nodup current) hrenamed
    (establishes_dropped hcurrent hfits) (establishes_added htarget hfits)
    (establishes_common htarget hfits)
  rw [← hplan] at hblocks
  refine hblocks.run_eq (onePrimary_view hcurrent) hguard fun key hkey => ?_
  have hnot := mt Table.mem_planKeys.2 hkey
  rw [not_or] at hnot
  rw [get?_view, Keyed.get?_eq_none_iff.2 hnot.2, hfits.absent hnot.1]
  rfl

end Plan

/-! ## The indexes of a new table -/

section Indexes

variable {κ : Type} {m : ColumnModel κ} {table : Table} (start : Column → κ)

/-- The columns of a new table once they have their indexes. -/
def indexed (m : ColumnModel κ) (table : Table) (start : Column → κ) : Keyed κ :=
  table.columns.mapValues fun _ c =>
    m.effects (Statement.addIndexFor? table.name c.name c.columnKey).toList (start c)

/-- The indexes of one kind. -/
theorem establishes_indexes (h : table.WellFormed) (kind : IndexKind) :
    Establishes m.rules ((table.columnsWithKey kind.key).map (.addIndex kind table.name))
      (table.columnsWithKey kind.key) (table.columns.mapValues fun _ c => start c).get?
      (m.indexed table start).get? := by
  have hblocks : Establishes m.rules
      ((table.columnsWithKey kind.key).flatMap fun column => [.addIndex kind table.name column])
      ((table.columnsWithKey kind.key).map id) (table.columns.mapValues fun _ c => start c).get?
      (m.indexed table start).get? := by
    refine Establishes.flatMap_single ?_ fun column hcolumn => ?_
    · rw [List.map_id]
      exact Table.columnsWithKey_nodup h kind.key
    · obtain ⟨c, hget, hkey⟩ := (Table.mem_columnsWithKey h).1 hcolumn
      refine (establishes_addIndex (v := start c)).congr_single ?_ ?_
      · rw [Keyed.get?_mapValues, hget]
        rfl
      · rw [indexed, Keyed.get?_mapValues, hget, Option.map_some, hkey]
        cases kind <;> rfl
  rwa [List.map_id, ← List.map_eq_flatMap] at hblocks

/-- A new table gets its indexes, each on the column that it is for. -/
theorem run_indexes (h : table.WellFormed)
    (hone : m.OnePrimary (table.columns.mapValues fun _ c => start c)) :
    run m.step table.indexes (table.columns.mapValues fun _ c => start c)
        = some (m.indexed table start) ∧ m.OnePrimary (m.indexed table start) := by
  have hblocks := (establishes_indexes (m := m) start h .unique).append
    (Table.indexedColumns_nodup h)
    (establishes_indexes start h .plain)
  refine hblocks.run_eq hone (guarded_of_forall (fun s hs _ => ?_) _) fun key hkey => ?_
  · obtain ⟨kind, column, rfl⟩ := Table.mem_indexes hs
    trivial
  · rw [indexed, Keyed.get?_mapValues, Keyed.get?_mapValues]
    cases hget : table.columns.get? key with
    | none => rfl
    | some c =>
      have hplain : ∀ k, key ∉ table.columnsWithKey k → c.columnKey ≠ k :=
        fun k hk hc => hk ((Table.mem_columnsWithKey h).2 ⟨c, hget, hc⟩)
      rw [List.mem_append, not_or] at hkey
      have hu := hplain .unique hkey.1
      have hm := hplain .multiple hkey.2
      cases hc : c.columnKey with
      | none => simp [hc, Statement.addIndexFor?, effects]
      | primary => simp [hc, Statement.addIndexFor?, effects]
      | unique => exact absurd hc hu
      | multiple => exact absurd hc hm

end Indexes

end ColumnModel

end Replay

end SchemaPlan
