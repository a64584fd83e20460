import SchemaPlan.Proofs.Agreement
import SchemaPlan.Proofs.Replay.Keys
set_option autoImplicit false

/-!
# Moving the primary key

A table has one primary key at most, so a column can get it only when no other column
carries it.  `diff_moves_primary_keys` says where a plan keeps to that: if the column that
had the primary key is dropped, or loses it and comes before the new one by name.  A
column that is to have an index of its own instead keeps the primary key throughout, as
such a change needs a schema between the two.

The proof follows the column that carries the primary key through the replay of keys:
`Statement.primaryAfter?` says where a statement leaves it, and only a statement that adds
a primary key puts it anywhere else.
-/

namespace SchemaPlan

open Replay

namespace Statement

/-- The column that gets the primary key. -/
def newPrimary? : Statement → Option String
  | .addPrimaryKey _ column => some column
  | _ => none

/-- Where a statement leaves the primary key of a column; `none` if it takes it away. -/
def primaryAfter? (column : String) : Statement → Option String
  | .dropColumn _ gone => if gone = column then none else some column
  | .changeColumn _ old c => if old = column then some c.name else some column
  | .addIndex _ _ other => if other = column then none else some column
  | .dropIndex _ _ other => if other = column then none else some column
  | .dropPrimaryKey _ => none
  | _ => some column

/-- Where statements leave the primary key of a column. -/
def primaryAfterAll? : List Statement → String → Option String
  | [], column => some column
  | s :: rest, column => (s.primaryAfter? column).bind (primaryAfterAll? rest)

variable {column : String} {statements : List Statement}

/-- A statement that does not rename a column leaves its primary key there or takes it
away. -/
theorem primaryAfter?_of_not_renamed {s : Statement}
    (h : ∀ {table c}, s = .changeColumn table column c → c.name = column) :
    s.primaryAfter? column = some column ∨ s.primaryAfter? column = none := by
  cases s with
  | changeColumn table old c =>
    rw [primaryAfter?]
    split
    · next hold =>
      subst hold
      exact .inl (congrArg some (h rfl))
    · exact .inl rfl
  | dropColumn _ other | addIndex _ _ other | dropIndex _ _ other =>
    rw [primaryAfter?]
    split
    · exact .inr rfl
    · exact .inl rfl
  | dropPrimaryKey => exact .inr rfl
  | _ => exact .inl rfl

theorem primaryAfterAll?_eq_self (h : ∀ s ∈ statements, s.primaryAfter? column = some column) :
    primaryAfterAll? statements column = some column := by
  induction statements with
  | nil => rfl
  | cons s rest ih =>
    obtain ⟨hs, hrest⟩ := List.forall_mem_cons.1 h
    rw [primaryAfterAll?, hs]
    exact ih hrest

theorem primaryAfterAll?_eq_none {taker : Statement} (htaker : taker ∈ statements)
    (htakes : taker.primaryAfter? column = none)
    (h : ∀ s ∈ statements,
      s.primaryAfter? column = some column ∨ s.primaryAfter? column = none) :
    primaryAfterAll? statements column = none := by
  induction statements with
  | nil => exact nomatch htaker
  | cons s rest ih =>
    obtain ⟨hs, hrest⟩ := List.forall_mem_cons.1 h
    rw [primaryAfterAll?]
    rcases hs with hstays | hgone
    · rw [hstays]
      rcases List.mem_cons.1 htaker with rfl | hmem
      · exact nomatch hstays.symm.trans htakes
      · exact ih hmem hrest
    · rw [hgone]
      rfl

end Statement

/-! ## Following the primary key -/

namespace KeyReplay

variable {keys next last : Keyed ColumnKey} {s : Statement} {statements : List Statement}
  {column other : String}

/-- A step leaves a primary key where `Statement.primaryAfter?` says. -/
theorem primary_of_step (h : keyColumns.step s keys = some next)
    (hcarries : keys.get? column = some .primary)
    (hafter : s.primaryAfter? column = some other) :
    next.get? other = some .primary := by
  have hthere : keys.contains column = true := Keyed.contains_of_get? hcarries
  cases s with
  | addColumn table c =>
    rw [ColumnModel.step, Option.ite_none_left_eq_some] at h
    obtain ⟨hfree, h⟩ := h
    obtain rfl := Option.some.inj h
    obtain rfl := Option.some.inj hafter
    have hne : c.name ≠ column := fun heq => hfree (heq ▸ hthere)
    rw [Keyed.get?_insert_of_ne _ _ (Ne.symm hne), hcarries]
  | dropColumn table gone =>
    rw [ColumnModel.step, Option.ite_none_right_eq_some] at h
    obtain rfl := Option.some.inj h.2
    rw [Statement.primaryAfter?, Option.ite_none_left_eq_some] at hafter
    obtain ⟨hne, hafter⟩ := hafter
    obtain rfl := Option.some.inj hafter
    rw [Keyed.get?_erase_of_ne _ (Ne.symm hne), hcarries]
  | changeColumn table old c =>
    obtain ⟨key, hkey, h⟩ := Option.bind_eq_some_iff.1 h
    rw [Option.ite_none_left_eq_some] at h
    obtain ⟨hfree, h⟩ := h
    obtain rfl := Option.some.inj h
    rw [Statement.primaryAfter?] at hafter
    split at hafter
    · next hold =>
      subst hold
      obtain rfl := Option.some.inj hafter
      rw [Keyed.get?_insert_self]
      exact hkey.symm.trans hcarries
    · next hold =>
      obtain rfl := Option.some.inj hafter
      have hne : c.name ≠ column := fun heq =>
        hfree ⟨fun hself => hold (hself.symm.trans heq), heq ▸ hthere⟩
      rw [Keyed.get?_insert_of_ne _ _ (Ne.symm hne),
        Keyed.get?_erase_of_ne _ (Ne.symm hold), hcarries]
  | addIndex kind table name | dropIndex kind table name =>
    obtain ⟨key, -, rfl⟩ := Option.map_eq_some_iff.1 h
    rw [Statement.primaryAfter?, Option.ite_none_left_eq_some] at hafter
    obtain ⟨hne, hafter⟩ := hafter
    obtain rfl := Option.some.inj hafter
    rw [Keyed.get?_insert_of_ne _ _ (Ne.symm hne), hcarries]
  | addPrimaryKey table name =>
    obtain ⟨key, -, rfl⟩ := Option.map_eq_some_iff.1 h
    obtain rfl := Option.some.inj hafter
    rw [Keyed.get?_insert]
    split
    · rfl
    · exact hcarries
  | dropPrimaryKey => exact absurd hafter.symm (Option.some_ne_none other)
  | _ =>
    obtain rfl := Option.some.inj h
    obtain rfl := Option.some.inj hafter
    exact hcarries

/-- A primary key that no statement gave to a column was left there. -/
theorem exists_of_step (hnew : s.newPrimary? = none) (h : keyColumns.step s keys = some next)
    (hcarries : next.get? other = some .primary) :
    ∃ column, keys.get? column = some .primary ∧ s.primaryAfter? column = some other := by
  cases s with
  | addColumn table c =>
    rw [ColumnModel.step, Option.ite_none_left_eq_some] at h
    obtain rfl := Option.some.inj h.2
    obtain ⟨-, hkey⟩ | ⟨-, hcarries⟩ := Keyed.get?_insert_eq_some_iff.1 hcarries
    · cases hkey
    · exact ⟨other, hcarries, rfl⟩
  | dropColumn table gone =>
    rw [ColumnModel.step, Option.ite_none_right_eq_some] at h
    obtain rfl := Option.some.inj h.2
    obtain ⟨hne, hcarries⟩ := Keyed.get?_erase_eq_some_iff.1 hcarries
    exact ⟨other, hcarries, if_neg hne⟩
  | changeColumn table old c =>
    obtain ⟨key, hkey, h⟩ := Option.bind_eq_some_iff.1 h
    rw [Option.ite_none_left_eq_some] at h
    obtain rfl := Option.some.inj h.2
    obtain ⟨rfl, rfl⟩ | ⟨-, hcarries⟩ := Keyed.get?_insert_eq_some_iff.1 hcarries
    · exact ⟨old, hkey, if_pos rfl⟩
    · obtain ⟨hne, hcarries⟩ := Keyed.get?_erase_eq_some_iff.1 hcarries
      exact ⟨other, hcarries, if_neg hne⟩
  | addIndex kind table name =>
    obtain ⟨key, -, rfl⟩ := Option.map_eq_some_iff.1 h
    obtain ⟨-, hkey⟩ | ⟨hne, hcarries⟩ := Keyed.get?_insert_eq_some_iff.1 hcarries
    · exact absurd hkey kind.key_ne_primary
    · exact ⟨other, hcarries, if_neg hne⟩
  | dropIndex kind table name =>
    obtain ⟨key, -, rfl⟩ := Option.map_eq_some_iff.1 h
    obtain ⟨-, hkey⟩ | ⟨hne, hcarries⟩ := Keyed.get?_insert_eq_some_iff.1 hcarries
    · cases hkey
    · exact ⟨other, hcarries, if_neg hne⟩
  | addPrimaryKey table name => exact absurd hnew (Option.some_ne_none name)
  | dropPrimaryKey table =>
    obtain rfl := Option.some.inj h
    obtain ⟨key, -, hkey⟩ := Keyed.get?_mapValues_eq_some_iff.1 hcarries
    have hnot : keyColumns.isPrimary (keyColumns.clear key) = false :=
      ColumnModel.not_primary_clear key
    rw [hkey] at hnot
    exact absurd hnot (by decide)
  | _ =>
    obtain rfl := Option.some.inj h
    exact ⟨other, hcarries, rfl⟩

theorem primary_of_run (h : run keyColumns.step statements keys = some last)
    (hcarries : keys.get? column = some .primary)
    (hafter : Statement.primaryAfterAll? statements column = some other) :
    last.get? other = some .primary := by
  induction statements generalizing keys column with
  | nil =>
    obtain rfl := Option.some.inj h
    obtain rfl := Option.some.inj hafter
    exact hcarries
  | cons s rest ih =>
    obtain ⟨next, hs, hrest⟩ := Option.bind_eq_some_iff.1 h
    obtain ⟨between, hbetween, hafter⟩ := Option.bind_eq_some_iff.1 hafter
    exact ih hrest (primary_of_step hs hcarries hbetween) hafter

theorem exists_of_run (hnew : ∀ s ∈ statements, s.newPrimary? = none)
    (h : run keyColumns.step statements keys = some last)
    (hcarries : last.get? other = some .primary) :
    ∃ column, keys.get? column = some .primary
      ∧ Statement.primaryAfterAll? statements column = some other := by
  induction statements generalizing keys with
  | nil =>
    obtain rfl := Option.some.inj h
    exact ⟨other, hcarries, rfl⟩
  | cons s rest ih =>
    obtain ⟨hs, hrest⟩ := List.forall_mem_cons.1 hnew
    obtain ⟨next, hstep, hrun⟩ := Option.bind_eq_some_iff.1 h
    obtain ⟨between, hbetween, hafter⟩ := ih hrest hrun
    obtain ⟨column, hcolumn, hleft⟩ := exists_of_step hs hstep hbetween
    refine ⟨column, hcolumn, ?_⟩
    rw [Statement.primaryAfterAll?, hleft]
    exact hafter

end KeyReplay

/-! ## The primary key of a table -/

namespace Table

/-- The keys of the columns of a table after some statements. -/
def replayKeys (table : Table) (statements : List Statement) : Option (Keyed ColumnKey) :=
  run keyColumns.step statements (keyColumns.view table)

/-- No column gets the primary key while one carries it. -/
def AddsPrimaryKeySafely (table : Table) (statements : List Statement) : Prop :=
  ∀ before name column after, statements = before ++ .addPrimaryKey name column :: after →
    ∃ keys, table.replayKeys before = some keys ∧ ∀ other, keys.get? other ≠ some .primary

/-- Before each column that gets the primary key, the column that had it is dropped, or
loses it and comes first by name. -/
def PrimaryGivesWay (target current : Table) (statements : List Statement) : Prop :=
  ∀ new ∈ statements.filterMap Statement.newPrimary?,
    ∀ old ∈ current.columns.entries, old.2.columnKey = .primary →
      .dropColumn target.name old.1 ∈ statements ∨
        (target.columns.get? old.1).map Column.columnKey = some .none ∧ old.1 < new

instance (target current : Table) (statements : List Statement) :
    Decidable (target.PrimaryGivesWay current statements) :=
  inferInstanceAs (Decidable (∀ new ∈ _, ∀ old ∈ _, _ → _ ∨ _ ∧ _))

/-- A place where a column gets the primary key while another carries it. -/
theorem not_addsPrimaryKeySafely {table : Table} {statements : List Statement} (i : Nat)
    (name column other : String) (hadd : statements[i]? = some (.addPrimaryKey name column))
    (hcarries : (table.replayKeys (statements.take i)).bind (·.get? other) = some .primary) :
    ¬ table.AddsPrimaryKeySafely statements := by
  intro hsafe
  obtain ⟨hi, hget⟩ := List.getElem?_eq_some_iff.1 hadd
  have hsplit : statements
      = statements.take i ++ .addPrimaryKey name column :: statements.drop (i + 1) := by
    rw [← hget, ← List.drop_eq_getElem_cons hi, List.take_append_drop]
  obtain ⟨keys, hkeys, hfree⟩ := hsafe _ _ _ _ hsplit
  rw [hkeys] at hcarries
  exact hfree other hcarries

/-- How statements move the primary key of a table. -/
structure MovesPrimaryKey (target current : Table) (statements : List Statement) : Prop where
  safe : target.PrimaryGivesWay current statements → current.AddsPrimaryKeySafely statements
  /-- A column that is to have an index of its own carries the primary key throughout. -/
  stays : ∀ {column c d}, current.columns.get? column = some d → d.columnKey = .primary →
    target.columns.get? column = some c → c.columnKey.IsIndex →
    ∀ before after, statements = before ++ after →
      ∃ keys, current.replayKeys before = some keys ∧ keys.get? column = some .primary

/-- What a plan does before it comes to the columns on both sides. -/
def openingPlan (target current : Table) : List Statement :=
  target.conversion current
    ++ (target.columnPairing current).pairs.map
      (fun pair => .changeColumn target.name pair.1.1 pair.2.2)
    ++ (target.columnPairing current).gone.flatMap (target.dropColumnStatements current)
    ++ (target.columnPairing current).new.flatMap target.addColumnStatements

theorem plan_eq_opening (target current : Table) : target.plan current
    = target.openingPlan current
      ++ (target.columns.common current.columns).flatMap target.sharedColumnStatements := rfl

variable {target current : Table} {s : Statement}

/-- Every part of a plan can be replayed. -/
theorem exists_replayKeys (htarget : target.WellFormed) (hcurrent : current.WellFormed)
    {before after : List Statement} (h : target.plan current = before ++ after) :
    ∃ keys, current.replayKeys before = some keys := by
  obtain ⟨last, hrun, -⟩ := keyColumns.exists_run_plan htarget hcurrent
  rw [h, run_append] at hrun
  obtain ⟨keys, hkeys, -⟩ := Option.bind_eq_some_iff.1 hrun
  exact ⟨keys, hkeys⟩

/-! ### Columns that get the primary key -/

theorem newPrimary?_opening (h : s ∈ target.openingPlan current) : s.newPrimary? = none := by
  simp only [openingPlan, List.mem_append, or_assoc] at h
  rcases h with h | h | h | h
  · rw [eq_of_mem_conversion h]
    rfl
  · obtain ⟨pair, -, rfl⟩ := List.mem_map.1 h
    rfl
  · obtain ⟨gone, -, h⟩ := List.mem_flatMap.1 h
    rcases mem_dropColumnStatements h with ⟨kind, rfl⟩ | rfl <;> rfl
  · obtain ⟨new, -, h⟩ := List.mem_flatMap.1 h
    rcases mem_addColumnStatements h with rfl | ⟨kind, rfl⟩ <;> rfl

/-- A column gets the primary key if it is to have it and has no key so far, and then
first of all. -/
theorem sharedColumnStatements_of_newPrimary {pair : Column × Column}
    (h : s ∈ target.sharedColumnStatements pair) (hnew : s.newPrimary? ≠ none) :
    pair.1.columnKey = .primary ∧ s = .addPrimaryKey target.name pair.1.name ∧
      ∃ rest, target.sharedColumnStatements pair = s :: rest ∧
        ∀ s ∈ rest, s.newPrimary? = none := by
  rcases mem_sharedColumnStatements h with h | rfl
  · rcases mem_keyTransition h with
      ⟨kind, rfl, -⟩ | ⟨kind, rfl, -⟩ | ⟨rfl, hold, hkey⟩ | ⟨rfl, -⟩
    · exact absurd rfl hnew
    · exact absurd rfl hnew
    · refine ⟨hkey, rfl, _, by rw [sharedColumnStatements, hold, hkey]; rfl, fun s hs => ?_⟩
      split at hs
      · rw [List.mem_singleton.1 hs]
        rfl
      · exact absurd hs List.not_mem_nil
    · exact absurd rfl hnew
  · exact absurd rfl hnew

theorem newPrimary?_shared {pair : Column × Column} (hkey : pair.1.columnKey ≠ .primary) :
    ∀ s ∈ target.sharedColumnStatements pair, s.newPrimary? = none := by
  intro s h
  by_contra hnew
  exact hkey (sharedColumnStatements_of_newPrimary h hnew).1

/-- The columns on both sides come by name. -/
theorem name_lt_of_common_split (htarget : target.WellFormed) {pair : Column × Column}
    {first second : List (Column × Column)}
    (h : target.columns.common current.columns = first ++ pair :: second) :
    (∀ p ∈ first, p.1.name < pair.1.name) ∧ ∀ p ∈ second, pair.1.name < p.1.name := by
  have hsorted : ((target.columns.common current.columns).map fun p => p.1.name).Pairwise
      (· < ·) := by
    rw [Keyed.map_common Column.name htarget.column_name]
    exact target.columns.keys_ascending.filter _
  rw [List.pairwise_map, h] at hsorted
  obtain ⟨-, hsecond, hfirst⟩ := List.pairwise_append.1 hsorted
  exact ⟨fun p hp => hfirst p hp pair List.mem_cons_self, (List.pairwise_cons.1 hsecond).1⟩

/-- One column on both sides at most is to have the primary key. -/
theorem name_eq_of_mem_common (htarget : target.WellFormed) {pair pair' : Column × Column}
    (hpair : pair ∈ target.columns.common current.columns)
    (hpair' : pair' ∈ target.columns.common current.columns)
    (hkey : pair.1.columnKey = .primary) (hkey' : pair'.1.columnKey = .primary) :
    pair.1.name = pair'.1.name := by
  obtain ⟨column, hc, -⟩ := Keyed.mem_common.1 hpair
  obtain ⟨column', hc', -⟩ := Keyed.mem_common.1 hpair'
  rw [htarget.column_name hc, htarget.column_name hc']
  exact htarget.primary_unique hc hc' hkey hkey'

/-- Where a plan gives a column the primary key: at its turn among the columns on both
sides, and to no column before. -/
theorem exists_split_of_addPrimaryKey (htarget : target.WellFormed) {name column : String}
    {before after : List Statement}
    (h : target.plan current = before ++ .addPrimaryKey name column :: after) :
    ∃ first pair second, target.columns.common current.columns = first ++ pair :: second ∧
      column = pair.1.name ∧
      before = target.openingPlan current ++ first.flatMap target.sharedColumnStatements ∧
      ∀ s ∈ before, s.newPrimary? = none := by
  have hmem : .addPrimaryKey name column ∈ target.plan current := by
    rw [h]
    exact List.mem_append_right _ List.mem_cons_self
  rw [plan_eq_opening] at hmem
  rcases List.mem_append.1 hmem with hmem | hmem
  · exact nomatch newPrimary?_opening hmem
  obtain ⟨pair, hpair, hmem⟩ := List.mem_flatMap.1 hmem
  obtain ⟨hkey, hs, rest, hblock, hrest⟩ := sharedColumnStatements_of_newPrimary hmem nofun
  obtain ⟨first, second, hcommon⟩ := List.append_of_mem hpair
  obtain ⟨hfirst, hsecond⟩ := name_lt_of_common_split htarget hcommon
  -- no other column on both sides gets the primary key
  have hquiet : ∀ p ∈ target.columns.common current.columns, p.1.name ≠ pair.1.name →
      ∀ s ∈ target.sharedColumnStatements p, s.newPrimary? = none := fun p hp hne =>
    newPrimary?_shared fun hkey' => hne (name_eq_of_mem_common htarget hp hpair hkey' hkey)
  have hbefore : ∀ s ∈ target.openingPlan current
        ++ first.flatMap target.sharedColumnStatements,
      s.newPrimary? = none := by
    intro s hs
    rcases List.mem_append.1 hs with hs | hs
    · exact newPrimary?_opening hs
    · obtain ⟨p, hp, hs⟩ := List.mem_flatMap.1 hs
      exact hquiet p (hcommon ▸ List.mem_append_left _ hp) (hfirst p hp).ne s hs
  have hafter : ∀ s ∈ rest ++ second.flatMap target.sharedColumnStatements,
      s.newPrimary? = none := by
    intro s hs
    rcases List.mem_append.1 hs with hs | hs
    · exact hrest s hs
    · obtain ⟨p, hp, hs⟩ := List.mem_flatMap.1 hs
      exact hquiet p (hcommon ▸ List.mem_append_right _ (List.mem_cons_of_mem _ hp))
        (hsecond p hp).ne' s hs
  have hplan : target.plan current
      = (target.openingPlan current ++ first.flatMap target.sharedColumnStatements)
        ++ .addPrimaryKey name column
          :: (rest ++ second.flatMap target.sharedColumnStatements) := by
    rw [plan_eq_opening, hcommon, List.flatMap_append, List.flatMap_cons, hblock,
      List.append_assoc, List.cons_append]
  have hnotBefore : .addPrimaryKey name column ∉
      target.openingPlan current ++ first.flatMap target.sharedColumnStatements :=
    fun hin => nomatch hbefore _ hin
  have hnotAfter : .addPrimaryKey name column ∉
      rest ++ second.flatMap target.sharedColumnStatements := fun hin => nomatch hafter _ hin
  obtain ⟨hsplit, -⟩ :=
    (List.append_cons_inj_of_notMem hnotBefore hnotAfter).1 (hplan.symm.trans h)
  exact ⟨first, pair, second, hcommon, (Statement.addPrimaryKey.inj hs).2, hsplit.symm,
    hsplit ▸ hbefore⟩

/-! ### The column that had the primary key -/

/-- A column that is not renamed keeps its primary key or loses it. -/
theorem primaryAfter?_of_mem_plan (hname : current.name = target.name) {column : String}
    (hkept : ∀ pair ∈ (target.columnPairing current).pairs, pair.1.1 ≠ column) :
    ∀ s ∈ target.plan current,
      s.primaryAfter? column = some column ∨ s.primaryAfter? column = none := by
  intro s hs
  refine Statement.primaryAfter?_of_not_renamed fun {table c} heq => ?_
  by_contra hne
  subst heq
  obtain rfl := Option.some.inj (alters_of_mem_plan hname hs)
  obtain ⟨pair, hpair, hold, -⟩ := (changeColumn_mem_plan_iff hne).1 hs
  exact hkept pair hpair hold

theorem ne_of_mem_pairs_of_shared {column : String} {c : Column}
    (hc : target.columns.get? column = some c) :
    ∀ pair ∈ (target.columnPairing current).pairs, pair.1.1 ≠ column := by
  rintro pair hpair rfl
  obtain ⟨⟨-, hfree⟩, -⟩ := lookups_of_mem_pairs hpair
  exact nomatch hc.symm.trans hfree

theorem ne_of_mem_gone_of_shared {column : String} {c : Column}
    (hc : target.columns.get? column = some c) {gone : String × Column}
    (hgone : gone ∈ (target.columnPairing current).gone) : gone.1 ≠ column := by
  rintro rfl
  exact absurd (hc.symm.trans (lookups_of_mem_gone hgone).2) (Option.some_ne_none c)

/-- A dropped column loses its primary key before the plan comes to the columns on both
sides, and is not renamed. -/
theorem exists_taker_of_dropped {table column : String}
    (h : .dropColumn table column ∈ target.plan current) :
    (∀ pair ∈ (target.columnPairing current).pairs, pair.1.1 ≠ column) ∧
      ∃ taker ∈ target.openingPlan current, taker.primaryAfter? column = none := by
  cases plans_of_mem h with
  | @drops gone hgone =>
    refine ⟨fun pair hpair heq => ?_, .dropColumn target.name gone.1, ?_, if_pos rfl⟩
    · have hin :
          gone.1 ∈ (target.columnPairing current).pairs.flatMap fun p => [p.1.1, p.2.1] :=
        List.mem_flatMap.2 ⟨pair, hpair, heq ▸ List.mem_cons_self⟩
      exact Pairing.not_mem_gone (target.columnPairing_nodup current) hin
        (List.mem_map_of_mem hgone)
    · refine List.mem_append_left _ (List.mem_append_right _ ?_)
      exact List.mem_flatMap.2 ⟨gone, hgone, List.mem_append_right _ List.mem_cons_self⟩

/-- A column on both sides that is to have no key loses the primary key at its turn. -/
theorem dropPrimaryKey_mem_shared {pair : Column × Column} (hnone : pair.1.columnKey = .none)
    (hprimary : pair.2.columnKey = .primary) :
    .dropPrimaryKey target.name ∈ target.sharedColumnStatements pair := by
  rw [sharedColumnStatements, hnone, hprimary]
  exact List.mem_append_left _ List.mem_cons_self

/-- A column on both sides that is to have no key loses the primary key before the plan
comes to one behind it, and is not renamed. -/
theorem exists_taker_of_precedes (htarget : target.WellFormed) {column : String} {c d : Column}
    (hc : target.columns.get? column = some c) (hd : current.columns.get? column = some d)
    (hnone : c.columnKey = .none) (hprimary : d.columnKey = .primary)
    {first second : List (Column × Column)} {pair : Column × Column}
    (hcommon : target.columns.common current.columns = first ++ pair :: second)
    (hlt : column < pair.1.name) :
    (∀ p ∈ (target.columnPairing current).pairs, p.1.1 ≠ column) ∧
      ∃ taker ∈ first.flatMap target.sharedColumnStatements,
        taker.primaryAfter? column = none := by
  have hshared : (c, d) ∈ first ++ pair :: second :=
    hcommon ▸ Keyed.mem_common.2 ⟨column, hc, hd⟩
  have hfirst : (c, d) ∈ first := by
    rw [← htarget.column_name hc] at hlt
    rcases List.mem_append.1 hshared with hin | hin
    · exact hin
    rcases List.mem_cons.1 hin with rfl | hin
    · exact absurd hlt (lt_irrefl _)
    · exact absurd hlt (lt_asymm ((name_lt_of_common_split htarget hcommon).2 _ hin))
  exact ⟨ne_of_mem_pairs_of_shared hc, .dropPrimaryKey target.name,
    List.mem_flatMap.2 ⟨_, hfirst, dropPrimaryKey_mem_shared hnone hprimary⟩, rfl⟩

/-- A plan before which the old primary key gives way adds the new one safely. -/
theorem addsPrimaryKeySafely_plan (htarget : target.WellFormed) (hcurrent : current.WellFormed)
    (hname : current.name = target.name)
    (h : target.PrimaryGivesWay current (target.plan current)) :
    current.AddsPrimaryKeySafely (target.plan current) := by
  intro before name column after hplan
  obtain ⟨keys, hkeys⟩ := exists_replayKeys htarget hcurrent hplan
  refine ⟨keys, hkeys, fun other hcarries => ?_⟩
  obtain ⟨first, pair, second, hcommon, rfl, hbefore, hquiet⟩ :=
    exists_split_of_addPrimaryKey htarget hplan
  -- a primary key that is there now was there at first, and was left where it is
  obtain ⟨old, hview, hafter⟩ := KeyReplay.exists_of_run hquiet hkeys hcarries
  obtain ⟨d, hd, hprimary⟩ := Keyed.get?_mapValues_eq_some_iff.1 hview
  have hnew : pair.1.name ∈ (target.plan current).filterMap Statement.newPrimary? := by
    rw [hplan]
    exact List.mem_filterMap.2 ⟨_, List.mem_append_right _ List.mem_cons_self, rfl⟩
  have hgone : (∀ p ∈ (target.columnPairing current).pairs, p.1.1 ≠ old) ∧
      ∃ taker ∈ before, taker.primaryAfter? old = none := by
    rw [hbefore]
    rcases h _ hnew (old, d) (Keyed.get?_eq_some_iff.1 hd) hprimary with hdrop | ⟨hnone, hlt⟩
    · obtain ⟨hkept, taker, htaker, htakes⟩ := exists_taker_of_dropped hdrop
      exact ⟨hkept, taker, List.mem_append_left _ htaker, htakes⟩
    · obtain ⟨c, hc, hkey⟩ := Option.map_eq_some_iff.1 hnone
      obtain ⟨hkept, taker, htaker, htakes⟩ :=
        exists_taker_of_precedes htarget hc hd hkey hprimary hcommon hlt
      exact ⟨hkept, taker, List.mem_append_right _ htaker, htakes⟩
  obtain ⟨hkept, taker, htaker, htakes⟩ := hgone
  have hnone : Statement.primaryAfterAll? before old = none := by
    refine Statement.primaryAfterAll?_eq_none htaker htakes fun s hs => ?_
    exact primaryAfter?_of_mem_plan hname hkept s (hplan ▸ List.mem_append_left _ hs)
  exact nomatch hnone.symm.trans hafter

/-- A column on both sides that is to have an index of its own keeps its primary key. -/
theorem primaryAfter?_of_isIndex (htarget : target.WellFormed) (hcurrent : current.WellFormed)
    {column : String} {c d : Column} (hd : current.columns.get? column = some d)
    (hprimary : d.columnKey = .primary) (hc : target.columns.get? column = some c)
    (hindex : c.columnKey.IsIndex) (h : s ∈ target.plan current) :
    s.primaryAfter? column = some column := by
  -- a column on both sides is called by the same name on both
  have hself : ∀ {pair : Column × Column}, pair ∈ target.columns.common current.columns →
      pair.1.name = column → pair = (c, d) := by
    intro pair hpair heq
    obtain ⟨key, ha, hb⟩ := Keyed.mem_common.1 hpair
    obtain rfl := (htarget.column_name ha).symm.trans heq
    exact Prod.ext (Option.some.inj (ha.symm.trans hc)) (Option.some.inj (hb.symm.trans hd))
  cases plans_of_mem h with
  | converts | adds | addsPrimary => rfl
  | renames hpair => exact if_neg (ne_of_mem_pairs_of_shared hc _ hpair)
  | dropsIndex kind hgone =>
    rw [hcurrent.column_name (lookups_of_mem_gone hgone).1]
    exact if_neg (ne_of_mem_gone_of_shared hc hgone)
  | drops hgone => exact if_neg (ne_of_mem_gone_of_shared hc hgone)
  | addsIndex kind hnew =>
    obtain ⟨hthere, hfree⟩ := lookups_of_mem_new hnew
    rw [htarget.column_name hthere]
    refine if_neg ?_
    rintro rfl
    exact absurd (hd.symm.trans hfree) (Option.some_ne_none d)
  | indexes kind hpair hold | unindexes kind hpair hold =>
    refine if_neg fun heq => hold ?_
    rw [hself hpair heq]
    exact hprimary
  | dropsPrimary hpair hold hnew =>
    -- no other column had the primary key, and this one is not to lose it
    obtain ⟨key, ha, hb⟩ := Keyed.mem_common.1 hpair
    obtain rfl := hcurrent.primary_unique hb hd hold hprimary
    rw [hself hpair (htarget.column_name ha)] at hnew
    rcases hindex with hkey | hkey <;> exact absurd (hnew.symm.trans hkey) (by decide)
  | redefines =>
    rw [Statement.primaryAfter?]
    split
    · next heq => rw [heq]
    · rfl

/-- The plan of a table moves its primary key. -/
theorem movesPrimaryKey_plan (htarget : target.WellFormed) (hcurrent : current.WellFormed)
    (hname : current.name = target.name) :
    target.MovesPrimaryKey current (target.plan current) where
  safe := addsPrimaryKeySafely_plan htarget hcurrent hname
  stays {column c d} hd hprimary hc hindex before after hplan := by
    obtain ⟨keys, hkeys⟩ := exists_replayKeys htarget hcurrent hplan
    have hview : (keyColumns.view current).get? column = some .primary :=
      Keyed.get?_mapValues_eq_some_iff.2 ⟨d, hd, hprimary⟩
    have hstays : Statement.primaryAfterAll? before column = some column := by
      refine Statement.primaryAfterAll?_eq_self fun s hs => ?_
      exact primaryAfter?_of_isIndex htarget hcurrent hd hprimary hc hindex
        (hplan ▸ List.mem_append_left _ hs)
    exact ⟨keys, hkeys, KeyReplay.primary_of_run hkeys hview hstays⟩

end Table

/-! ## Schemas -/

/-- Between two valid schemas there is a comparison: it lists the plan, and the statements
for a table on both sides move its primary key as `Table.MovesPrimaryKey` says. -/
theorem diff_moves_primary_keys {target current : Schema} (htarget : target.validate = .ok ())
    (hcurrent : current.validate = .ok ()) (database : String) :
    target.diff current database
        = .ok (.ofStatements database (target.plan current database)) ∧
      ∀ {name t u}, target.tables.get? name = some t → current.tables.get? name = some u →
        t.MovesPrimaryKey u
          ((target.plan current database).filter fun s => s.alters? = some name) := by
  have htarget' := (Schema.validate_eq_ok_iff target).1 htarget
  have hcurrent' := (Schema.validate_eq_ok_iff current).1 hcurrent
  refine ⟨Schema.diff_of_wellFormed htarget' hcurrent' database, fun {name t u} ht hu => ?_⟩
  have hname : u.name = t.name :=
    (hcurrent'.table_name hu).trans (htarget'.table_name ht).symm
  rw [Schema.filter_plan htarget' hcurrent' database ht hu]
  exact Table.movesPrimaryKey_plan (htarget'.table ht) (hcurrent'.table hu) hname

namespace Hotel

/-- Bills, known by their codes. -/
def bill : Table := { name := "bill", columns := .ofList [
  ("code", { name := "code", dataType := "varchar", columnKey := .primary }),
  ("id", { name := "id", dataType := "int" })] }

/-- Bills with another primary key; their codes are to have an index. -/
def nextBill : Table := { name := "bill", columns := .ofList [
  ("code", { name := "code", dataType := "varchar", columnKey := .unique }),
  ("id", { name := "id", dataType := "int", columnKey := .primary })] }

/-- Guests, known by their addresses. -/
def guest : Table := { name := "guest", columns := .ofList [
  ("id", { name := "id", dataType := "int" }),
  ("mail", { name := "mail", dataType := "varchar", columnKey := .primary })] }

/-- Guests with another primary key, their addresses renamed. -/
def nextGuest : Table := { name := "guest", columns := .ofList [
  ("address", { name := "address", dataType := "varchar" }),
  ("id", { name := "id", dataType := "int", columnKey := .primary })] }

/-- Rooms, known by their numbers. -/
def room : Table := { name := "room", columns := .ofList [
  ("door", { name := "door", dataType := "int" }),
  ("number", { name := "number", dataType := "int", columnKey := .primary })] }

/-- Rooms, known by a column that comes first by name. -/
def nextRoom : Table := { name := "room", columns := .ofList [
  ("door", { name := "door", dataType := "int", columnKey := .primary }),
  ("number", { name := "number", dataType := "int" })] }

/-- Stays, known by their days. -/
def stay : Table := { name := "stay", columns := .ofList [
  ("day", { name := "day", dataType := "date", columnKey := .primary }),
  ("number", { name := "number", dataType := "int" })] }

/-- Stays, known by a column that comes last by name. -/
def nextStay : Table := { name := "stay", columns := .ofList [
  ("day", { name := "day", dataType := "date" }),
  ("number", { name := "number", dataType := "int", columnKey := .primary })] }

/-- Tickets, known by a tag. -/
def ticket : Table := { name := "ticket", columns := .ofList [
  ("id", { name := "id", dataType := "int" }),
  ("tag", { name := "tag", dataType := "varchar", columnKey := .primary })] }

/-- Tickets without their tags. -/
def nextTicket : Table := { name := "ticket", columns := .ofList [
  ("id", { name := "id", dataType := "int", columnKey := .primary })] }

/-- A hotel. -/
def schema : Schema where
  tables := .ofList [("bill", bill), ("guest", guest), ("room", room), ("stay", stay),
    ("ticket", ticket)]

/-- The hotel with other primary keys. -/
def nextSchema : Schema where
  tables := .ofList [("bill", nextBill), ("guest", nextGuest), ("room", nextRoom),
    ("stay", nextStay), ("ticket", nextTicket)]

/-- What is planned for a table of the hotel. -/
def statements (table : String) : List Statement :=
  (nextSchema.plan schema "hotel").filter fun s => s.alters? = some table

end Hotel

/-- In two tables the old primary key gives way, once to a later column and once because
its column is dropped; in a third it stays. -/
theorem diff_moves_primary_keys_hotel :
    (Hotel.nextSchema.validate = .ok () ∧ Hotel.schema.validate = .ok ()) ∧
      Hotel.nextSchema.diff Hotel.schema "hotel"
        = .ok (.ofStatements "hotel" (Hotel.nextSchema.plan Hotel.schema "hotel")) ∧
      Hotel.stay.AddsPrimaryKeySafely (Hotel.statements "stay") ∧
      Hotel.ticket.AddsPrimaryKeySafely (Hotel.statements "ticket") ∧
      Hotel.nextBill.MovesPrimaryKey Hotel.bill (Hotel.statements "bill") := by
  have htarget : Hotel.nextSchema.validate = .ok () := by decide +kernel
  have hcurrent : Hotel.schema.validate = .ok () := by decide +kernel
  obtain ⟨hdiff, hmoves⟩ := diff_moves_primary_keys htarget hcurrent "hotel"
  have hstay : Hotel.nextStay.MovesPrimaryKey Hotel.stay (Hotel.statements "stay") :=
    hmoves (by decide +kernel) (by decide +kernel)
  have hticket : Hotel.nextTicket.MovesPrimaryKey Hotel.ticket (Hotel.statements "ticket") :=
    hmoves (by decide +kernel) (by decide +kernel)
  exact ⟨⟨htarget, hcurrent⟩, hdiff, hstay.safe (by decide +kernel),
    hticket.safe (by decide +kernel), hmoves (by decide +kernel) (by decide +kernel)⟩

/-- Where the column that had the primary key is to have an index, is renamed, or comes
after the new one by name, the new one gets the primary key too early. -/
theorem hotel_adds_primary_keys_early :
    (Hotel.nextSchema.validate = .ok () ∧ Hotel.schema.validate = .ok ()) ∧
      ∀ tables ∈ [(Hotel.nextBill, Hotel.bill), (Hotel.nextGuest, Hotel.guest),
          (Hotel.nextRoom, Hotel.room)],
        Hotel.nextSchema.tables.get? tables.1.name = some tables.1 ∧
          Hotel.schema.tables.get? tables.1.name = some tables.2 ∧
          ¬ tables.2.AddsPrimaryKeySafely (Hotel.statements tables.1.name) := by
  refine ⟨by decide +kernel, ?_⟩
  simp only [List.forall_mem_cons]
  refine ⟨⟨by decide +kernel, by decide +kernel, ?_⟩,
    ⟨by decide +kernel, by decide +kernel, ?_⟩,
    ⟨by decide +kernel, by decide +kernel, ?_⟩, nofun⟩
  · exact Table.not_addsPrimaryKeySafely 0 "bill" "id" "code"
      (by decide +kernel) (by decide +kernel)
  · exact Table.not_addsPrimaryKeySafely 1 "guest" "id" "address"
      (by decide +kernel) (by decide +kernel)
  · exact Table.not_addsPrimaryKeySafely 0 "room" "door" "number"
      (by decide +kernel) (by decide +kernel)

end SchemaPlan
