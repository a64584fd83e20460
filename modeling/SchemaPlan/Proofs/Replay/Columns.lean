import SchemaPlan.Proofs.Pairing
import SchemaPlan.Proofs.Replay.Run
import SchemaPlan.Proofs.WellFormed
set_option autoImplicit false

/-!
# Replaying on the columns of a table

What a replay keeps of a column differs from question to question: its name, its
key, its whole definition.  A `ColumnModel` says what is kept and what each
statement does to it.  For every model at once, each statement and each block of
statements that a plan is made of touches one column, a renaming two, and
leaves at most one column with the primary key.
-/

namespace SchemaPlan

/-- The key of a column that has an index of a kind. -/
def IndexKind.key : IndexKind → ColumnKey
  | .plain => .multiple
  | .unique => .unique

namespace IndexKind

theorem key_inj {kind kind' : IndexKind} : kind.key = kind'.key ↔ kind = kind' := by
  cases kind <;> cases kind' <;> decide

theorem key_ne_none (kind : IndexKind) : kind.key ≠ .none := by
  cases kind <;> decide

theorem key_ne_primary (kind : IndexKind) : kind.key ≠ .primary := by
  cases kind <;> decide

end IndexKind

namespace Replay

/-- What a replay keeps of a column, and how statements change it. -/
structure ColumnModel (κ : Type) where
  /-- A column that is already there. -/
  ofColumn : Column → κ
  /-- A column that is added. -/
  add : Column → κ
  /-- A column that gets a new definition. -/
  change : Column → κ → κ
  /-- A column that gets a new key. -/
  setKey : ColumnKey → κ → κ
  /-- Whether a column is known to carry the primary key. -/
  isPrimary : κ → Bool
  /-- Either the primary key is seen on columns that are there, or on none at all. -/
  isPrimary_ofColumn : (∀ c, isPrimary (ofColumn c) = (c.columnKey == .primary)) ∨
    ∀ v, isPrimary v = false
  isPrimary_add : ∀ c, isPrimary (add c) = false
  isPrimary_change : ∀ c v, isPrimary (change c v) = isPrimary v
  isPrimary_setKey : ∀ {key : ColumnKey} {v : κ},
    isPrimary (setKey key v) = true → key = .primary

namespace ColumnModel

variable {κ : Type} (m : ColumnModel κ)

/-! ## Statements -/

/-- The columns of a table as the model keeps them. -/
def view (table : Table) : Keyed κ := table.columns.mapValues fun _ c => m.ofColumn c

/-- A column without its primary key. -/
def clear (v : κ) : κ := if m.isPrimary v then m.setKey .none v else v

/-- Give a column another key. -/
def rekey (column : String) (key : ColumnKey) (columns : Keyed κ) : Option (Keyed κ) :=
  (columns.get? column).map fun v => columns.insert column (m.setKey key v)

/-- What a statement does to the columns of the table that it alters; `none` if
a column it names is not there, or one it brings in is there already. -/
def step : Statement → Keyed κ → Option (Keyed κ)
  | .addColumn _ c, columns =>
    if columns.contains c.name then none else some (columns.insert c.name (m.add c))
  | .dropColumn _ column, columns =>
    if columns.contains column then some (columns.erase column) else none
  | .changeColumn _ old c, columns =>
    (columns.get? old).bind fun v =>
      if c.name ≠ old ∧ columns.contains c.name = true then none
      else some ((columns.erase old).insert c.name (m.change c v))
  | .addIndex kind _ column, columns => m.rekey column kind.key columns
  | .dropIndex _ _ column, columns => m.rekey column .none columns
  | .addPrimaryKey _ column, columns => m.rekey column .primary columns
  | .dropPrimaryKey _, columns => some (columns.mapValues fun _ v => m.clear v)
  | _, columns => some columns

/-- No column carries the primary key when one is to get it. -/
def guard : Statement → Keyed κ → Prop
  | .addPrimaryKey .., columns => ∀ key v, columns.get? key = some v → m.isPrimary v = false
  | _, _ => True

/-- At most one column carries the primary key. -/
def OnePrimary (columns : Keyed κ) : Prop :=
  ∀ {key other : String} {v w : κ}, columns.get? key = some v → columns.get? other = some w →
    m.isPrimary v = true → m.isPrimary w = true → key = other

/-- The rules of the replay. -/
def rules : Rules κ := ⟨m.step, m.guard, m.OnePrimary⟩

variable {m}

theorem clear_of_not_primary {v : κ} (h : m.isPrimary v = false) : m.clear v = v := by
  rw [clear, h, if_neg Bool.false_ne_true]

theorem not_primary_clear (v : κ) : m.isPrimary (m.clear v) = false := by
  cases hv : m.isPrimary v with
  | false => rw [clear_of_not_primary hv, hv]
  | true =>
    rw [clear, if_pos hv]
    cases hset : m.isPrimary (m.setKey .none v) with
    | false => rfl
    | true => exact absurd (m.isPrimary_setKey hset) (by decide)

/-! ## One primary key at most -/

theorem onePrimary_of_none {columns : Keyed κ}
    (h : ∀ key v, columns.get? key = some v → m.isPrimary v = false) :
    m.OnePrimary columns := by
  intro key other v w hv _ hvp _
  rw [h key v hv] at hvp
  exact Bool.noConfusion hvp

theorem OnePrimary.erase {columns : Keyed κ} (h : m.OnePrimary columns) (column : String) :
    m.OnePrimary (columns.erase column) := by
  intro key other v w hv hw
  exact h (Keyed.get?_erase_eq_some_iff.1 hv).2 (Keyed.get?_erase_eq_some_iff.1 hw).2

/-- A column that does not carry the primary key may come in. -/
theorem OnePrimary.insert {columns : Keyed κ} (h : m.OnePrimary columns) (column : String)
    {w : κ} (hw : m.isPrimary w = false) : m.OnePrimary (columns.insert column w) := by
  intro key other v u hv hu hvp hup
  obtain ⟨-, rfl⟩ | ⟨-, hv⟩ := Keyed.get?_insert_eq_some_iff.1 hv
  · exact absurd (hvp.symm.trans hw) (by decide)
  · obtain ⟨-, rfl⟩ | ⟨-, hu⟩ := Keyed.get?_insert_eq_some_iff.1 hu
    · exact absurd (hup.symm.trans hw) (by decide)
    · exact h hv hu hvp hup

/-- The place of the primary key may move. -/
theorem OnePrimary.move {columns : Keyed κ} (h : m.OnePrimary columns) {old new : String}
    {v w : κ} (hv : columns.get? old = some v) (hw : m.isPrimary w = m.isPrimary v) :
    m.OnePrimary ((columns.erase old).insert new w) := by
  -- a primary key found off the new place is not the one that moved
  have hoff : ∀ {key : String} {u : κ}, (columns.erase old).get? key = some u →
      m.isPrimary u = true → m.isPrimary v = true → False := by
    intro key u hu hup hvp
    obtain ⟨hne, hu⟩ := Keyed.get?_erase_eq_some_iff.1 hu
    exact hne (h hv hu hvp hup)
  intro key other u x hu hx hup hxp
  obtain ⟨rfl, rfl⟩ | ⟨-, hu⟩ := Keyed.get?_insert_eq_some_iff.1 hu
  · obtain ⟨rfl, -⟩ | ⟨-, hx⟩ := Keyed.get?_insert_eq_some_iff.1 hx
    · rfl
    · exact (hoff hx hxp (hw ▸ hup)).elim
  · obtain ⟨rfl, rfl⟩ | ⟨-, hx⟩ := Keyed.get?_insert_eq_some_iff.1 hx
    · exact (hoff hu hup (hw ▸ hxp)).elim
    · exact h.erase old hu hx hup hxp

/-- The columns of a well-formed table carry one primary key at most. -/
theorem onePrimary_view {table : Table} (h : table.WellFormed) :
    m.OnePrimary (m.view table) := by
  intro key other v w hv hw hvp hwp
  obtain ⟨c, hc, rfl⟩ := Keyed.get?_mapValues_eq_some_iff.1 hv
  obtain ⟨d, hd, rfl⟩ := Keyed.get?_mapValues_eq_some_iff.1 hw
  rcases m.isPrimary_ofColumn with hsees | hblind
  · rw [hsees, beq_iff_eq] at hvp hwp
    exact h.primary_unique hc hd hvp hwp
  · rw [hblind] at hvp
    exact Bool.noConfusion hvp

/-! ## What each statement establishes -/

section Statements

variable {table : String} {start final : String → Option κ} {v : κ}

/-- A renamed column leaves its old name and stands under the new one. -/
theorem establishes_rename {old : String} {c : Column} (hne : c.name ≠ old)
    (hold : start old = some v) (hnew : start c.name = none)
    (hgone : final old = none) (hthere : final c.name = some (m.change c v)) :
    Establishes m.rules [.changeColumn table old c] [old, c.name] start final := by
  refine .of_move hne hold hnew hgone hthere fun columns hone hget hfree => ⟨?_, ?_⟩
  · simp [run_singleton, rules, step, hget, Keyed.contains_of_get?_none hfree]
  · exact OnePrimary.move hone hget (m.isPrimary_change c v)

theorem establishes_drop {column : String} :
    Establishes m.rules [.dropColumn table column] [column] (fun _ => some v)
      fun _ => none := by
  refine .of_erase fun columns hone hget => ⟨?_, OnePrimary.erase hone column⟩
  simp [run_singleton, rules, step, Keyed.contains_of_get? hget]

/-- A statement that puts a value under a name. -/
theorem establishes_of_insert {s : Statement} {column : String} {before : Option κ} {w : κ}
    (hstep : ∀ columns : Keyed κ, columns.get? column = before →
      m.step s columns = some (columns.insert column w))
    (hinv : ∀ columns : Keyed κ, m.OnePrimary columns → m.guard s columns →
      columns.get? column = before → m.OnePrimary (columns.insert column w)) :
    Establishes m.rules [s] [column] (fun _ => before) fun _ => some w := by
  refine .of_insert fun columns hone hguard hget => ⟨?_, hinv columns hone hguard.1 hget⟩
  rw [run_singleton]
  exact hstep columns hget

theorem establishes_add {c : Column} :
    Establishes m.rules [.addColumn table c] [c.name] (fun _ => none)
      fun _ => some (m.add c) :=
  establishes_of_insert
    (fun columns hget => by simp [step, Keyed.contains_of_get?_none hget])
    fun _ hone _ _ => hone.insert _ (m.isPrimary_add c)

/-- A column that keeps its name takes over its new definition in place. -/
theorem establishes_redefine {c : Column} :
    Establishes m.rules [.changeColumn table c.name c] [c.name] (fun _ => some v)
      fun _ => some (m.change c v) := by
  have herase : ∀ columns : Keyed κ, (columns.erase c.name).insert c.name (m.change c v)
      = columns.insert c.name (m.change c v) := by
    intro columns
    refine Keyed.ext_get? fun key => ?_
    by_cases hkey : key = c.name
    · rw [hkey, Keyed.get?_insert_self, Keyed.get?_insert_self]
    · rw [Keyed.get?_insert_of_ne _ _ hkey, Keyed.get?_insert_of_ne _ _ hkey,
        Keyed.get?_erase_of_ne _ hkey]
  refine establishes_of_insert (fun columns hget => ?_) fun columns hone _ hget => ?_
  · simp [step, hget, herase]
  · rw [← herase]
    exact hone.move hget (m.isPrimary_change c v)

/-- A statement that gives a column a key other than the primary one. -/
theorem establishes_rekey {s : Statement} {column : String} {key : ColumnKey}
    (hstep : m.step s = m.rekey column key) (hkey : key ≠ .primary) :
    Establishes m.rules [s] [column] (fun _ => some v) fun _ => some (m.setKey key v) := by
  have hplain : m.isPrimary (m.setKey key v) = false := by
    cases hset : m.isPrimary (m.setKey key v) with
    | false => rfl
    | true => exact absurd (m.isPrimary_setKey hset) hkey
  exact establishes_of_insert (fun columns hget => by simp [hstep, rekey, hget])
    fun _ hone _ _ => hone.insert _ hplain

theorem establishes_addPrimaryKey {column : String} :
    Establishes m.rules [.addPrimaryKey table column] [column] (fun _ => some v)
      fun _ => some (m.setKey .primary v) := by
  refine establishes_of_insert (fun columns hget => by simp [step, rekey, hget])
    fun columns _ hnone hget => ?_
  intro key other u w hu hw hup hwp
  -- no other column carries the primary key, so both are the one that gets it
  have honly : ∀ {name : String} {x : κ},
      (columns.insert column (m.setKey .primary v)).get? name = some x →
        m.isPrimary x = true → name = column := by
    intro name x hx hxp
    by_contra hname
    rw [Keyed.get?_insert_of_ne _ _ hname] at hx
    rw [hnone name x hx] at hxp
    exact Bool.noConfusion hxp
  exact (honly hu hup).trans (honly hw hwp).symm

/-- Dropping the primary key changes the column that carries it and no other. -/
theorem establishes_dropPrimaryKey {column : String}
    (hv : m.isPrimary v = true ∨ ∀ w, m.isPrimary w = false) :
    Establishes m.rules [.dropPrimaryKey table] [column] (fun _ => some v)
      fun _ => some (m.clear v) := by
  intro columns hinv _ hcolumns
  have hget : columns.get? column = some v := hcolumns column List.mem_cons_self
  refine ⟨columns.mapValues fun _ w => m.clear w, rfl, ?_, fun key hkey => ?_,
    fun key hkey => ?_⟩
  · refine onePrimary_of_none fun key w hw => ?_
    obtain ⟨u, -, rfl⟩ := Keyed.get?_mapValues_eq_some_iff.1 hw
    exact not_primary_clear u
  · rw [List.mem_singleton.1 hkey, Keyed.get?_mapValues, hget]
    rfl
  · rw [List.mem_singleton] at hkey
    rw [Keyed.get?_mapValues]
    cases hother : columns.get? key with
    | none => rfl
    | some w =>
      have hw : m.isPrimary w = false := by
        rcases hv with hv | hblind
        · cases hwp : m.isPrimary w with
          | false => rfl
          | true => exact absurd (hinv hother hget hwp hv) hkey
        · exact hblind w
      rw [Option.map_some, clear_of_not_primary hw]

end Statements

/-! ## What each block establishes -/

variable (m)

/-- What a statement does to the one column that it is about. -/
def effect : Statement → κ → κ
  | .changeColumn _ _ c, v => m.change c v
  | .addIndex kind _ _, v => m.setKey kind.key v
  | .dropIndex .., v => m.setKey .none v
  | .addPrimaryKey .., v => m.setKey .primary v
  | .dropPrimaryKey _, v => m.clear v
  | _, v => v

/-- What statements do, one after the other, to the one column that they are about. -/
def effects (statements : List Statement) (v : κ) : κ :=
  statements.foldl (fun w s => m.effect s w) v

variable {m}

section Blocks

variable {table column : String} {v : κ}

theorem establishes_addIndex {kind : IndexKind} :
    Establishes m.rules [.addIndex kind table column] [column] (fun _ => some v)
      fun _ => some (m.setKey kind.key v) :=
  establishes_rekey rfl (by cases kind <;> decide)

theorem establishes_dropIndex {kind : IndexKind} :
    Establishes m.rules [.dropIndex kind table column] [column] (fun _ => some v)
      fun _ => some (m.setKey .none v) :=
  establishes_rekey rfl (by decide)

/-- The column of a primary key is seen as such, or no column is. -/
theorem isPrimary_of_columnKey {c : Column} (h : c.columnKey = .primary) :
    m.isPrimary (m.ofColumn c) = true ∨ ∀ w, m.isPrimary w = false := by
  rcases m.isPrimary_ofColumn with hsees | hblind
  · exact .inl (by rw [hsees, h]; rfl)
  · exact .inr hblind

/-- The key of a column that is there goes over into another. -/
theorem establishes_keyTransition (table column : String) (c : Column) (key : ColumnKey) :
    Establishes m.rules (keyTransition table column c.columnKey key) [column]
      (fun _ => some (m.ofColumn c))
      fun _ =>
        some (m.effects (keyTransition table column c.columnKey key) (m.ofColumn c)) := by
  cases hc : c.columnKey with
  | none =>
    cases key with
    | none => exact .stay
    | primary => exact establishes_addPrimaryKey
    | unique => exact establishes_addIndex
    | multiple => exact establishes_addIndex
  | primary =>
    cases key with
    | none => exact establishes_dropPrimaryKey (isPrimary_of_columnKey hc)
    | primary => exact .stay
    | unique => exact .stay
    | multiple => exact .stay
  | unique =>
    cases key with
    | none => exact establishes_dropIndex
    | primary => exact .stay
    | unique => exact .stay
    | multiple => exact establishes_dropIndex.seq establishes_addIndex
  | multiple =>
    cases key with
    | none => exact establishes_dropIndex
    | primary => exact .stay
    | unique => exact establishes_dropIndex.seq establishes_addIndex
    | multiple => exact .stay

/-- A column on both sides goes through its statements. -/
theorem establishes_shared (target : Table) (c d : Column) :
    Establishes m.rules (target.sharedColumnStatements (c, d)) [c.name]
      (fun _ => some (m.ofColumn d))
      fun _ => some (m.effects (target.sharedColumnStatements (c, d)) (m.ofColumn d)) := by
  have hkey := establishes_keyTransition (m := m) target.name c.name d c.columnKey
  unfold Table.sharedColumnStatements
  split
  · rw [effects, List.foldl_append]
    exact hkey.seq establishes_redefine
  · rw [List.append_nil]
    exact hkey

/-- A column that goes takes its index with it. -/
theorem establishes_gone (target current : Table) {gone : String × Column}
    (hname : gone.2.name = gone.1) :
    Establishes m.rules (target.dropColumnStatements current gone) [gone.1]
      (fun _ => some v) fun _ => none := by
  unfold Table.dropColumnStatements
  rw [hname]
  cases gone.2.columnKey with
  | none => exact establishes_drop
  | primary => exact establishes_drop
  | unique => exact establishes_dropIndex.seq establishes_drop
  | multiple => exact establishes_dropIndex.seq establishes_drop

/-- A column that comes brings its index. -/
theorem establishes_new (target : Table) (new : String × Column) :
    Establishes m.rules (target.addColumnStatements new) [new.2.name] (fun _ => none)
      fun _ => some (m.effects
        (Statement.addIndexFor? target.name new.2.name new.2.columnKey).toList
        (m.add new.2)) := by
  unfold Table.addColumnStatements
  cases new.2.columnKey with
  | none => exact establishes_add
  | primary => exact establishes_add
  | unique => exact establishes_add.seq establishes_addIndex
  | multiple => exact establishes_add.seq establishes_addIndex

end Blocks

end ColumnModel

end Replay

end SchemaPlan
