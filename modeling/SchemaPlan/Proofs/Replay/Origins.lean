import SchemaPlan.Proofs.Replay.Coverage
set_option autoImplicit false

/-!
# Names before a plan

`Origins.of` reads from a list of statements how each table and each column was called
before them.  For a plan these are the names of the partners in its pairings, and every
statement of a plan leaves them alone (`Schema.keepsOrigins_plan`): columns come, go and
get their indexes under names that no other column has had.
-/

namespace SchemaPlan

open Replay

/-! ## Origins -/

namespace Statement

/-- What a table is called before a statement that gives it a new name. -/
def oldTable? (table : String) : Statement → Option String
  | .renameTable old new => if new = table then some old else none
  | _ => none

/-- What a column of a table is called before a statement that gives it a new name. -/
def oldColumn? (table column : String) : Statement → Option String
  | .changeColumn altered old c =>
    if altered = table ∧ c.name = column ∧ c.name ≠ old then some old else none
  | _ => none

theorem oldTable?_eq_some_iff {s : Statement} {table old : String} :
    s.oldTable? table = some old ↔ s = .renameTable old table := by
  cases s <;> simp [oldTable?, and_comm]

theorem oldColumn?_eq_some_iff {s : Statement} {table column old : String} :
    s.oldColumn? table column = some old ↔
      ∃ c, s = .changeColumn table old c ∧ c.name = column ∧ c.name ≠ old := by
  cases s with
  | changeColumn altered prior c =>
    rw [oldColumn?, Option.ite_none_right_eq_some]
    constructor
    · rintro ⟨⟨rfl, hname, hne⟩, h⟩
      obtain rfl := Option.some.inj h
      exact ⟨c, rfl, hname, hne⟩
    · rintro ⟨d, heq, hname, hne⟩
      obtain ⟨rfl, rfl, rfl⟩ := Statement.changeColumn.inj heq
      exact ⟨⟨rfl, hname, hne⟩, rfl⟩
  | _ => simp [oldColumn?]

end Statement

/-- By which names tables, and the columns of a table, are called. -/
structure Origins where
  table : String → String
  column : String → String → String

namespace Origins

/-- The names before some statements, for the names after them. -/
def of (statements : List Statement) : Origins where
  table table := (statements.findSome? (Statement.oldTable? table)).getD table
  column table column := (statements.findSome? (Statement.oldColumn? table column)).getD column

variable {statements : List Statement} {table column old : String}

theorem getD_findSome?_eq {f : Statement → Option String} {s : Statement} (hs : s ∈ statements)
    (hold : f s = some old) (huniq : ∀ t ∈ statements, ∀ other, f t = some other → other = old)
    (default : String) : (statements.findSome? f).getD default = old := by
  cases hfound : statements.findSome? f with
  | none => exact nomatch (List.findSome?_eq_none_iff.1 hfound s hs).symm.trans hold
  | some other =>
    obtain ⟨t, ht, hother⟩ := List.exists_of_findSome?_eq_some hfound
    exact huniq t ht other hother

/-- A table that no statement renames has the name that it had. -/
theorem of_table_eq_self (h : ∀ old, .renameTable old table ∉ statements) :
    (of statements).table table = table := by
  have hnone : statements.findSome? (Statement.oldTable? table) = none := by
    refine List.findSome?_eq_none_iff.2 fun s hs => Option.eq_none_iff_forall_ne_some.2 ?_
    intro old hold
    exact h old (Statement.oldTable?_eq_some_iff.1 hold ▸ hs)
  exact congrArg (Option.getD · table) hnone

/-- A column that no statement renames has the name that it had. -/
theorem of_column_eq_self
    (h : ∀ old c, c.name = column → c.name ≠ old → .changeColumn table old c ∉ statements) :
    (of statements).column table column = column := by
  have hnone : statements.findSome? (Statement.oldColumn? table column) = none := by
    refine List.findSome?_eq_none_iff.2 fun s hs => Option.eq_none_iff_forall_ne_some.2 ?_
    intro old hold
    obtain ⟨c, rfl, hname, hne⟩ := Statement.oldColumn?_eq_some_iff.1 hold
    exact h old c hname hne hs
  exact congrArg (Option.getD · column) hnone

/-- Where nothing gets a new name, all names are those that were there before. -/
theorem of_eq_of_nil (htables : ∀ old new, .renameTable old new ∉ statements)
    (hcolumns : ∀ table old c, .changeColumn table old c ∈ statements → c.name = old) :
    of statements = of [] := by
  have htable : (of statements).table = id :=
    funext fun table => of_table_eq_self fun old => htables old table
  have hcolumn : (of statements).column = fun _ => id :=
    funext fun table => funext fun column =>
      of_column_eq_self fun old c _ hne hmem => hne (hcolumns table old c hmem)
  calc of statements = ⟨(of statements).table, (of statements).column⟩ := rfl
    _ = ⟨id, fun _ => id⟩ := by rw [htable, hcolumn]
    _ = of [] := rfl

end Origins

/-! ## The origins of a plan -/

namespace Table

/-- What calls the columns of a table of both sides by the names that they had. -/
structure OriginOf (target current : Table) (origin : String → String) : Prop where
  renamed : ∀ {pair : (String × Column) × (String × Column)},
    pair ∈ (target.columnPairing current).pairs → origin pair.2.1 = pair.1.1
  other : ∀ {column : String},
    (∀ pair ∈ (target.columnPairing current).pairs, pair.2.1 ≠ column) → origin column = column

namespace OriginOf

variable {target current : Table} {origin : String → String}
  (h : target.OriginOf current origin)
include h

/-- A column that was there has its own name for an origin. -/
theorem eq_self_of_get? {column : String} {d : Column}
    (hd : current.columns.get? column = some d) : origin column = column := by
  refine h.other fun pair hpair heq => ?_
  have hfree := (lookups_of_mem_pairs hpair).2.2
  rw [heq, hd] at hfree
  exact nomatch hfree

/-- A column that is in no pair is the only one with its name for an origin. -/
theorem eq_iff {column : String}
    (hold : ∀ pair ∈ (target.columnPairing current).pairs, pair.1.1 ≠ column)
    (hnew : ∀ pair ∈ (target.columnPairing current).pairs, pair.2.1 ≠ column) (other : String) :
    origin other = column ↔ other = column := by
  constructor
  · intro heq
    by_cases hpair : ∃ pair ∈ (target.columnPairing current).pairs, pair.2.1 = other
    · obtain ⟨pair, hpair, rfl⟩ := hpair
      exact absurd ((h.renamed hpair).symm.trans heq) (hold pair hpair)
    · rw [h.other fun pair hmem hother => hpair ⟨pair, hmem, hother⟩] at heq
      exact heq
  · rintro rfl
    exact h.other hnew

theorem eq_iff_of_mem_gone {gone : String × Column}
    (hgone : gone ∈ (target.columnPairing current).gone) (other : String) :
    origin other = gone.1 ↔ other = gone.1 := by
  refine h.eq_iff (fun pair hpair heq => ?_) (fun pair hpair heq => ?_) other
  · refine Pairing.not_mem_gone (target.columnPairing_nodup current) ?_
      (List.mem_map_of_mem hgone)
    exact List.mem_flatMap.2 ⟨pair, hpair, heq ▸ List.mem_cons_self⟩
  · have hfree := (lookups_of_mem_pairs hpair).2.2
    rw [heq, (lookups_of_mem_gone hgone).1] at hfree
    exact nomatch hfree

theorem eq_iff_of_mem_new {new : String × Column}
    (hnew : new ∈ (target.columnPairing current).new) (other : String) :
    origin other = new.1 ↔ other = new.1 := by
  refine h.eq_iff (fun pair hpair heq => ?_) (fun pair hpair heq => ?_) other
  · have hold := (lookups_of_mem_pairs hpair).1.1
    rw [heq, (lookups_of_mem_new hnew).2] at hold
    exact nomatch hold
  · exact Pairing.not_mem_new (target.columnPairing_nodup current) hpair
      (List.mem_map.2 ⟨new, hnew, heq.symm⟩)

theorem eq_iff_of_shared {column : String} {c d : Column}
    (hc : target.columns.get? column = some c) (hd : current.columns.get? column = some d)
    (other : String) : origin other = column ↔ other = column := by
  refine h.eq_iff (fun pair hpair heq => ?_) (fun pair hpair heq => ?_) other
  · have hfree := (lookups_of_mem_pairs hpair).1.2
    rw [heq, hc] at hfree
    exact nomatch hfree
  · have hfree := (lookups_of_mem_pairs hpair).2.2
    rw [heq, hd] at hfree
    exact nomatch hfree

/-- The statements of the plan of a table leave the origins of its columns alone. -/
theorem respects (htarget : target.WellFormed) (hcurrent : current.WellFormed)
    (hname : current.name = target.name) {s : Statement} (hs : s ∈ target.plan current) :
    s.Respects target.name origin fun column => ∃ d, current.columns.get? column = some d := by
  cases plans_of_mem hs with
  | converts => trivial
  | renames hpair =>
    obtain ⟨⟨hold, -⟩, hthere, hfree⟩ := lookups_of_mem_pairs hpair
    rw [Statement.Respects, htarget.column_name hthere, hfree, h.renamed hpair,
      h.eq_self_of_get? hold]
    exact ⟨rfl, .inr fun ⟨_, hd⟩ => nomatch hd⟩
  | dropsIndex kind hgone =>
    rw [hcurrent.column_name (lookups_of_mem_gone hgone).1]
    exact ⟨hname, h.eq_iff_of_mem_gone hgone⟩
  | drops hgone =>
    obtain ⟨hold, -⟩ := lookups_of_mem_gone hgone
    exact ⟨⟨_, hold⟩, h.eq_self_of_get? hold⟩
  | adds hnew =>
    obtain ⟨hthere, hfree⟩ := lookups_of_mem_new hnew
    rw [Statement.Respects, htarget.column_name hthere, hfree]
    exact fun ⟨_, hd⟩ => nomatch hd
  | addsIndex kind hnew =>
    rw [htarget.column_name (lookups_of_mem_new hnew).1]
    exact ⟨rfl, h.eq_iff_of_mem_new hnew⟩
  | indexes kind hpair | unindexes kind hpair =>
    obtain ⟨column, hc, hd⟩ := Keyed.mem_common.1 hpair
    obtain rfl := htarget.column_name hc
    exact ⟨rfl, h.eq_iff_of_shared hc hd⟩
  | addsPrimary | dropsPrimary => trivial
  | redefines => exact ⟨rfl, .inl rfl⟩

end OriginOf

end Table

namespace Schema

variable {target current : Schema} (htarget : target.WellFormed) (hcurrent : current.WellFormed)
  (database : String)
include htarget hcurrent

/-- A table that is paired had the name of its partner. -/
theorem origin_of_mem_tablePairing {pair : (String × Table) × (String × Table)}
    (hpair : pair ∈ (target.tablePairing current).pairs) :
    (Origins.of (target.plan current database)).table pair.2.1 = pair.1.1 := by
  refine Origins.getD_findSome?_eq
    ((renameTable_mem_plan_iff htarget hcurrent).2 ⟨pair, hpair, rfl, rfl⟩)
    (Statement.oldTable?_eq_some_iff.2 rfl) (fun s hs other hother => ?_) _
  rw [Statement.oldTable?_eq_some_iff.1 hother] at hs
  obtain ⟨pair', hpair', rfl, hnew⟩ := (renameTable_mem_plan_iff htarget hcurrent).1 hs
  rw [Pairing.eq_of_new_eq (target.tablePairing_nodup current) hpair' hpair hnew]

/-- A table that is not in a pair has the name that it had. -/
theorem origin_of_not_paired {table : String}
    (h : ∀ pair ∈ (target.tablePairing current).pairs, pair.2.1 ≠ table) :
    (Origins.of (target.plan current database)).table table = table := by
  refine Origins.of_table_eq_self fun old hmem => ?_
  obtain ⟨pair, hpair, -, hnew⟩ := (renameTable_mem_plan_iff htarget hcurrent).1 hmem
  exact h pair hpair hnew

/-- A table that was there has its own name for an origin. -/
theorem origin_of_get? {table : String} {u : Table}
    (hu : current.tables.get? table = some u) :
    (Origins.of (target.plan current database)).table table = table := by
  refine origin_of_not_paired htarget hcurrent database fun pair hpair heq => ?_
  have hfree := (lookups_of_mem_pairs hpair).2.2
  rw [heq, hu] at hfree
  exact nomatch hfree

/-- The columns of a table that is not on both sides have the names that they had. -/
theorem columnOrigin_of_not_shared {table : String}
    (h : target.tables.get? table = none ∨ current.tables.get? table = none) :
    (Origins.of (target.plan current database)).column table = id := by
  refine funext fun column => Origins.of_column_eq_self fun old c _ _ hmem => ?_
  obtain ⟨t, u, ht, hu, -⟩ := exists_of_alters htarget hcurrent hmem rfl (by simp)
  rcases h with h | h
  · exact nomatch ht.symm.trans h
  · exact nomatch hu.symm.trans h

/-- The columns of a table on both sides had the names by which the plan of the table
calls them. -/
theorem originOf_shared {table : String} {t u : Table} (ht : target.tables.get? table = some t)
    (hu : current.tables.get? table = some u) :
    t.OriginOf u ((Origins.of (target.plan current database)).column table) := by
  obtain rfl := htarget.table_name ht
  -- what renames a column of the table is in the plan of the table
  have hpaired : ∀ {old : String} {c : Column}, c.name ≠ old →
      .changeColumn t.name old c ∈ target.plan current database →
        ∃ pair ∈ (t.columnPairing u).pairs, pair.1.1 = old ∧ pair.2.1 = c.name := by
    intro old c hne hmem
    obtain ⟨t', u', ht', hu', hmem⟩ := exists_of_alters htarget hcurrent hmem rfl (by simp)
    obtain rfl := Option.some.inj (ht.symm.trans ht')
    obtain rfl := Option.some.inj (hu.symm.trans hu')
    obtain ⟨pair, hpair, hold, rfl⟩ := (Table.changeColumn_mem_plan_iff hne).1 hmem
    exact ⟨pair, hpair, hold,
      ((htarget.table ht).column_name (lookups_of_mem_pairs hpair).2.1).symm⟩
  refine ⟨fun {pair} hpair => ?_,
    fun h => Origins.of_column_eq_self fun old c hname hne hmem => ?_⟩
  · have hne := Table.name_ne_of_mem_columnPairing (htarget.table ht) hpair
    have hmem : .changeColumn t.name pair.1.1 pair.2.2 ∈ target.plan current database :=
      mem_plan_of_mem_common (Keyed.mem_common.2 ⟨_, ht, hu⟩)
        (Table.changeColumn_mem_plan hpair)
    refine Origins.getD_findSome?_eq hmem
      (Statement.oldColumn?_eq_some_iff.2 ⟨pair.2.2, rfl, hne⟩) (fun s hs other hother => ?_) _
    obtain ⟨c, rfl, hname, hother⟩ := Statement.oldColumn?_eq_some_iff.1 hother
    obtain ⟨pair', hpair', rfl, hnew⟩ := hpaired hother hs
    rw [Pairing.eq_of_new_eq (t.columnPairing_nodup u) hpair' hpair (hnew.trans hname)]
  · obtain ⟨pair, hpair, -, hnew⟩ := hpaired hne hmem
    exact h pair hpair (hnew.trans hname)

/-- A column that was there has its own name for an origin. -/
theorem columnOrigin_of_get? {table : String} {u : Table}
    (hu : current.tables.get? table = some u) {column : String} {d : Column}
    (hd : u.columns.get? column = some d) :
    (Origins.of (target.plan current database)).column table column = column := by
  cases ht : target.tables.get? table with
  | some t => exact (originOf_shared htarget hcurrent database ht hu).eq_self_of_get? hd
  | none => rw [columnOrigin_of_not_shared htarget hcurrent database (.inl ht), id]

end Schema

/-! ## Statements of a plan -/

/-- A statement leaves the names in place by which tables and columns are called. -/
structure Statement.KeepsOrigins (origins : Origins) (s : Statement) : Prop where
  renames : ∀ {old new : String}, s = .renameTable old new →
    origins.table new = origins.table old ∧ origins.column new = origins.column old
  alters : ∀ {table : String}, s.alters? = some table →
    ∃ old, s.Respects (origins.table table) (origins.column table) old

theorem Schema.keepsOrigins_plan {target current : Schema} (htarget : target.WellFormed)
    (hcurrent : current.WellFormed) {database : String} {s : Statement}
    (hs : s ∈ target.plan current database) :
    s.KeepsOrigins (.of (target.plan current database)) := by
  rcases mem_plan_iff.1 hs with
    hs | ⟨⟨t, u⟩, hpair, hs⟩ | ⟨pair, hpair, rfl⟩ | ⟨gone, hgone, rfl⟩ | ⟨new, hnew, hs⟩
  · rw [eq_of_mem_defaultsStatement hs]
    exact ⟨fun h => (nomatch h), fun h => (nomatch h)⟩
  · obtain ⟨key, ht, hu⟩ := Keyed.mem_common.1 hpair
    obtain rfl := htarget.table_name ht
    have halters := alters_of_mem_common htarget hcurrent hpair hs
    refine ⟨fun h => ?_, fun h => ⟨fun column => ∃ d, u.columns.get? column = some d, ?_⟩⟩
    · rw [h] at halters
      exact nomatch halters
    · obtain rfl := Option.some.inj (halters.symm.trans h)
      rw [origin_of_get? htarget hcurrent database hu]
      exact (originOf_shared htarget hcurrent database ht hu).respects (htarget.table ht)
        (hcurrent.table hu) (hcurrent.table_name hu) hs
  · refine ⟨fun h => ?_, fun h => (nomatch h)⟩
    obtain ⟨rfl, rfl⟩ := Statement.renameTable.inj h
    obtain ⟨⟨hold, hgone⟩, -, hfree⟩ := lookups_of_mem_pairs hpair
    constructor
    · rw [origin_of_mem_tablePairing htarget hcurrent database hpair,
        origin_of_get? htarget hcurrent database hold]
    · rw [columnOrigin_of_not_shared htarget hcurrent database (.inr hfree),
        columnOrigin_of_not_shared htarget hcurrent database (.inl hgone)]
  · exact ⟨fun h => (nomatch h), fun h => (nomatch h)⟩
  · obtain ⟨hthere, hfree⟩ := lookups_of_mem_new hnew
    rcases List.mem_cons.1 hs with rfl | hs
    · exact ⟨fun h => (nomatch h), fun h => (nomatch h)⟩
    · obtain ⟨kind, column, rfl⟩ := Table.mem_indexes hs
      have hpaired : ∀ pair ∈ (target.tablePairing current).pairs, pair.2.1 ≠ new.1 := by
        intro pair hpair heq
        exact Pairing.not_mem_new (target.tablePairing_nodup current) hpair
          (List.mem_map.2 ⟨new, hnew, heq.symm⟩)
      refine ⟨fun h => (nomatch h), fun h => ⟨fun _ => False, ?_⟩⟩
      obtain rfl := Option.some.inj h
      rw [htarget.table_name hthere, origin_of_not_paired htarget hcurrent database hpaired,
        columnOrigin_of_not_shared htarget hcurrent database (.inr hfree)]
      exact ⟨rfl, fun other => Iff.rfl⟩

end SchemaPlan
