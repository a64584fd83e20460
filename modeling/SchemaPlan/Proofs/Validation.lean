import Mathlib.Data.Prod.Lex
import Mathlib.Data.String.Basic
import Mathlib.Order.WithBot
import SchemaPlan.Proofs.WellFormed
set_option autoImplicit false

/-!
# The first defect

Validation goes through a schema and stops at the first thing that is wrong.  What
can be wrong is said here without the scan: `Schema.HasDefect` has every defect of a
schema at its site, and sites are ordered as tables, columns and the checks of a
column are.  A schema without a defect is a well-formed one; of any other, validation
reports the defect at the least site (`validate_reports_first`).
-/

namespace SchemaPlan

/-! ## Sites -/

/-- What is checked of a column. -/
inductive ColumnCheck
  | name | type | primaryKey
  deriving DecidableEq, Repr

/-- The rank of a check among those of one column. -/
def ColumnCheck.rank : ColumnCheck → Nat
  | name => 0
  | type => 1
  | primaryKey => 2

theorem ColumnCheck.rank_injective : Function.Injective ColumnCheck.rank := by
  intro a b
  cases a <;> cases b <;> decide

/-- Where a schema can be wrong: at the key of a table, or at a column of it. -/
inductive Site
  | table (table : String)
  | column (table column : String) (check : ColumnCheck)
  deriving Repr

namespace Site

/-- Tables come in ascending order of their keys, the key of a table before its columns;
columns come in ascending order of theirs, each with its checks by rank. -/
def position : Site → String ×ₗ WithBot (String ×ₗ Nat)
  | .table t => toLex (t, ⊥)
  | .column t c check => toLex (t, WithBot.some (toLex (c, check.rank)))

theorem position_injective : Function.Injective position := by
  intro p q h
  cases p with
  | table a =>
    cases q with
    | table b => rw [(Prod.mk.inj h).1]
    | column b d q => exact absurd (Prod.mk.inj h).2 WithBot.bot_ne_coe
  | column a c p =>
    cases q with
    | table b => exact absurd (Prod.mk.inj h).2 WithBot.coe_ne_bot
    | column b d q =>
      obtain ⟨rfl, hcolumn⟩ := Prod.mk.inj h
      obtain ⟨rfl, hrank⟩ := Prod.mk.inj (toLex.injective (WithBot.coe_injective hcolumn))
      rw [ColumnCheck.rank_injective hrank]

instance : LinearOrder Site := LinearOrder.lift' position position_injective

/-- The table at which a site is. -/
def tableKey : Site → String
  | .table t => t
  | .column t .. => t

/-- What is at a table behind another comes later. -/
theorem le_of_tableKey_lt {p q : Site} (h : p.tableKey < q.tableKey) : p ≤ q := by
  cases p <;> cases q <;> exact Prod.Lex.toLex_le_toLex.2 (.inl h)

/-- The key of a table comes before all else that is at it. -/
theorem table_tableKey_le (p : Site) : .table p.tableKey ≤ p := by
  cases p <;> exact Prod.Lex.toLex_le_toLex.2 (.inr ⟨rfl, bot_le⟩)

/-- The checks of the columns of one table. -/
theorem column_le_column {t c d : String} {check check' : ColumnCheck}
    (h : c < d ∨ (c = d ∧ check.rank ≤ check'.rank)) :
    Site.column t c check ≤ .column t d check' := by
  have hlex : toLex (c, check.rank) ≤ toLex (d, check'.rank) := Prod.Lex.toLex_le_toLex.2 h
  exact Prod.Lex.toLex_le_toLex.2 (.inr ⟨rfl, WithBot.coe_le_coe.2 hlex⟩)

end Site

/-! ## Defects -/

/-- The first column by name that carries the primary key. -/
def Table.FirstPrimary (table : Table) (first : String) : Prop :=
  (∃ c, table.columns.get? first = some c ∧ c.columnKey = .primary) ∧
    ∀ {key : String} {c : Column}, table.columns.get? key = some c → c.columnKey = .primary →
      first ≤ key

/-- What is wrong with a column of a table. -/
inductive Table.HasDefect (table : Table) : String → ColumnCheck → Defect → Prop
  | name {key : String} {c : Column} (h : table.columns.get? key = some c)
    (hname : c.name ≠ key) : HasDefect table key .name (.columnKey key c.name)
  | type {key : String} {c : Column} (h : table.columns.get? key = some c)
    (htype : c.type? = none) : HasDefect table key .type (.unknownType c.dataType)
  | primaryKey {key first : String} {c : Column} (h : table.columns.get? key = some c)
    (hprimary : c.columnKey = .primary) (hfirst : table.FirstPrimary first)
    (hlt : first < key) :
    HasDefect table key .primaryKey (.secondPrimaryKey first)

/-- What is wrong with a schema, and where. -/
inductive Schema.HasDefect (schema : Schema) : Site → SchemaFault → Prop
  | table {key : String} {t : Table} (h : schema.tables.get? key = some t)
    (hname : t.name ≠ key) : HasDefect schema (.table key) ⟨key, "", .tableKey key t.name⟩
  | column {key column : String} {t : Table} {check : ColumnCheck} {defect : Defect}
    (h : schema.tables.get? key = some t) (hdefect : t.HasDefect column check defect) :
    HasDefect schema (.column key column check) ⟨t.name, column, defect⟩

/-- The defect at the least site of a schema. -/
def Schema.FirstFault (schema : Schema) (fault : SchemaFault) : Prop :=
  ∃ site, schema.HasDefect site fault ∧
    ∀ {other : Site} {fault' : SchemaFault}, schema.HasDefect other fault' → site ≤ other

/-- There is one defect at most at a site of a table. -/
theorem Table.HasDefect.unique {table : Table} {column : String} {check : ColumnCheck}
    {defect defect' : Defect} (h : table.HasDefect column check defect)
    (h' : table.HasDefect column check defect') : defect = defect' := by
  cases h with
  | name h =>
    cases h' with
    | name h' => rw [Option.some.inj (h.symm.trans h')]
  | type h =>
    cases h' with
    | type h' => rw [Option.some.inj (h.symm.trans h')]
  | primaryKey _ _ hfirst =>
    cases h' with
    | primaryKey _ _ hfirst' =>
      obtain ⟨⟨c, hc, hprimary⟩, hleast⟩ := hfirst
      obtain ⟨⟨d, hd, hprimary'⟩, hleast'⟩ := hfirst'
      rw [le_antisymm (hleast hd hprimary') (hleast' hc hprimary)]

/-- There is one defect at most at a site. -/
theorem Schema.HasDefect.unique {schema : Schema} {site : Site} {fault fault' : SchemaFault}
    (h : schema.HasDefect site fault) (h' : schema.HasDefect site fault') : fault = fault' := by
  cases h with
  | table h =>
    cases h' with
    | table h' => rw [Option.some.inj (h.symm.trans h')]
  | column h hdefect =>
    cases h' with
    | column h' hdefect' =>
      obtain rfl := Option.some.inj (h.symm.trans h')
      rw [hdefect.unique hdefect']

/-- There is one defect at most at the least site. -/
theorem Schema.FirstFault.unique {schema : Schema} {fault fault' : SchemaFault}
    (h : schema.FirstFault fault) (h' : schema.FirstFault fault') : fault = fault' := by
  obtain ⟨site, hdefect, hleast⟩ := h
  obtain ⟨site', hdefect', hleast'⟩ := h'
  obtain rfl := le_antisymm (hleast hdefect') (hleast' hdefect)
  exact hdefect.unique hdefect'

/-- A well-formed table has no defect. -/
theorem Table.WellFormed.not_hasDefect {table : Table} (h : table.WellFormed) {column : String}
    {check : ColumnCheck} {defect : Defect} : ¬ table.HasDefect column check defect := by
  intro hdefect
  cases hdefect with
  | name hc hname => exact hname (h.column_name hc)
  | type hc htype =>
    obtain ⟨d, hd⟩ := h.column_type hc
    exact nomatch htype.symm.trans hd
  | primaryKey hc hprimary hfirst hlt =>
    obtain ⟨d, hd, hprimary'⟩ := hfirst.1
    exact hlt.ne (h.primary_unique hd hc hprimary' hprimary)

/-- A well-formed schema has no defect. -/
theorem Schema.WellFormed.not_hasDefect {schema : Schema} (h : schema.WellFormed) {site : Site}
    {fault : SchemaFault} : ¬ schema.HasDefect site fault := by
  intro hdefect
  cases hdefect with
  | table ht hname => exact hname (h.table_name ht)
  | column ht hdefect => exact (h.table ht).not_hasDefect hdefect

/-! ## Where a scan stops -/

namespace Table

/-- Why a scan that has passed some columns stops at the next one: for its name; for its
type, the name being right; or for a primary key met before, both being right. -/
inductive StopsAt (passed : List (String × Column)) (key : String) (c : Column) :
    ColumnCheck → Defect → Prop
  | name (hname : c.name ≠ key) : StopsAt passed key c .name (.columnKey key c.name)
  | type (hname : c.name = key) (htype : c.type? = none) :
    StopsAt passed key c .type (.unknownType c.dataType)
  | primaryKey {first : String} (hname : c.name = key) (htype : c.type? ≠ none)
    (hprimary : c.columnKey = .primary)
    (hfirst : ∃ d, (first, d) ∈ passed ∧ d.columnKey = .primary) :
    StopsAt passed key c .primaryKey (.secondPrimaryKey first)

/-- A scan that has passed some columns and met the primary key, or not, passes more and
stops with a fault. -/
def Stops (table : String) (passed : List (String × Column)) (met : Option String)
    (entries : List (String × Column)) (fault : SchemaFault) : Prop :=
  ∃ before key c after check defect, entries = before ++ (key, c) :: after ∧
    validateColumns table met before = .ok () ∧
    StopsAt (passed ++ before) key c check defect ∧ fault = ⟨table, key, defect⟩

section Scan

variable {table key : String} {passed rest : List (String × Column)} {met met' : Option String}
  {c : Column} {fault : SchemaFault}

theorem Stops.here {check : ColumnCheck} {defect : Defect}
    (h : StopsAt passed key c check defect)
    (hfault : fault = ⟨table, key, defect⟩) : Stops table passed met ((key, c) :: rest) fault :=
  ⟨[], key, c, rest, check, defect, rfl, rfl, by rwa [List.append_nil], hfault⟩

theorem Stops.later
    (hpass : ∀ list,
      validateColumns table met ((key, c) :: list) = validateColumns table met' list)
    (h : Stops table (passed ++ [(key, c)]) met' rest fault) :
    Stops table passed met ((key, c) :: rest) fault := by
  obtain ⟨before, key', c', after, check, defect, rfl, hok, hstop, hfault⟩ := h
  refine ⟨(key, c) :: before, key', c', after, check, defect, rfl, ?_, ?_, hfault⟩
  · rw [hpass, hok]
  · rwa [List.append_assoc] at hstop

/-- A scan of columns that fails stops at one of them. -/
theorem stops_of_validateColumns {entries : List (String × Column)}
    (hmet : ∀ first, met = some first → ∃ d, (first, d) ∈ passed ∧ d.columnKey = .primary)
    (h : validateColumns table met entries = .error fault) :
    Stops table passed met entries fault := by
  induction entries generalizing passed met with
  | nil => exact nomatch h
  | cons entry rest ih =>
    obtain ⟨key, c⟩ := entry
    by_cases hname : c.name = key
    · cases htype : c.type? with
      | none =>
        refine .here (.type hname htype) ?_
        simpa [validateColumns, hname, htype] using h.symm
      | some d =>
        have hknown : c.type? ≠ none := by rw [htype]; exact Option.some_ne_none d
        by_cases hprimary : c.columnKey = .primary
        · cases met with
          | none =>
            have hpass : ∀ list, validateColumns table none ((key, c) :: list)
                = validateColumns table (some key) list := by
              simp [validateColumns, hname, htype, hprimary]
            refine .later hpass (ih (fun first hfirst => ?_) ((hpass rest).symm.trans h))
            obtain rfl := Option.some.inj hfirst
            exact ⟨c, List.mem_append_right _ List.mem_cons_self, hprimary⟩
          | some first =>
            refine .here (.primaryKey hname hknown hprimary (hmet first rfl)) ?_
            simpa [validateColumns, hname, htype, hprimary] using h.symm
        · have hpass : ∀ list, validateColumns table met ((key, c) :: list)
              = validateColumns table met list := by
            simp [validateColumns, hname, htype, hprimary]
          refine .later hpass (ih (fun first hfirst => ?_) ((hpass rest).symm.trans h))
          obtain ⟨d, hd, hdprimary⟩ := hmet first hfirst
          exact ⟨d, List.mem_append_left _ hd, hdprimary⟩
    · refine .here (.name hname) ?_
      simpa [validateColumns, hname] using h.symm

end Scan

section Split

variable {table : Table} {before after : List (String × Column)} {key : String} {c : Column}

/-- The columns before that at which a scan stops, as a table. -/
theorem wellFormed_before (hentries : table.columns.entries = before ++ (key, c) :: after)
    (hok : validateColumns table.name none before = .ok ()) :
    ∃ passed : Table, passed.WellFormed ∧ passed.columns.entries = before := by
  have hascending := table.columns.ascending
  rw [hentries, List.pairwise_append] at hascending
  let passed : Table := { table with columns := ⟨before, hascending.1⟩ }
  exact ⟨passed, (validate_eq_ok_iff passed).1 hok, rfl⟩

/-- A column is before that at which a scan stops, or is that one, or comes later. -/
theorem get?_cases (hentries : table.columns.entries = before ++ (key, c) :: after)
    {other : String} {d : Column} (hd : table.columns.get? other = some d) :
    (other, d) ∈ before ∨ (other = key ∧ d = c) ∨ key < other := by
  rw [Keyed.get?_eq_some_iff, hentries, List.mem_append, List.mem_cons] at hd
  rcases hd with hd | hd | hd
  · exact .inl hd
  · exact .inr (.inl (Prod.mk.inj hd))
  · exact .inr (.inr ((Keyed.lt_of_entries_eq hentries).2 _ hd))

theorem get?_of_mem_before (hentries : table.columns.entries = before ++ (key, c) :: after)
    {other : String} {d : Column} (hd : (other, d) ∈ before) :
    table.columns.get? other = some d ∧ other < key := by
  refine ⟨?_, (Keyed.lt_of_entries_eq hentries).1 _ hd⟩
  rw [Keyed.get?_eq_some_iff, hentries]
  exact List.mem_append_left _ hd

/-- A scan stops at a defect. -/
theorem StopsAt.hasDefect (hentries : table.columns.entries = before ++ (key, c) :: after)
    (hok : validateColumns table.name none before = .ok ()) {check : ColumnCheck}
    {defect : Defect} (h : StopsAt before key c check defect) :
    table.HasDefect key check defect := by
  have hc : table.columns.get? key = some c := by
    rw [Keyed.get?_eq_some_iff, hentries]
    exact List.mem_append_right _ List.mem_cons_self
  obtain ⟨passed, hpassed, rfl⟩ := wellFormed_before hentries hok
  cases h with
  | name hname => exact .name hc hname
  | type _ htype => exact .type hc htype
  | @primaryKey first _ _ hprimary hfirst =>
    obtain ⟨d, hd, hdprimary⟩ := hfirst
    obtain ⟨hget, hlt⟩ := get?_of_mem_before hentries hd
    refine .primaryKey hc hprimary ⟨⟨d, hget, hdprimary⟩, fun {other e} he heprimary => ?_⟩ hlt
    rcases get?_cases hentries he with hin | ⟨rfl, -⟩ | hgt
    · exact le_of_eq (hpassed.primary_unique (Keyed.get?_eq_some_iff.2 hd)
        (Keyed.get?_eq_some_iff.2 hin) hdprimary heprimary)
    · exact hlt.le
    · exact (hlt.trans hgt).le

/-- What a scan has passed has no defect. -/
theorem HasDefect.key_le (hentries : table.columns.entries = before ++ (key, c) :: after)
    (hok : validateColumns table.name none before = .ok ()) {other : String}
    {check : ColumnCheck} {defect : Defect} (h : table.HasDefect other check defect) :
    key ≤ other := by
  obtain ⟨passed, hpassed, rfl⟩ := wellFormed_before hentries hok
  have hbehind : ∀ {d}, table.columns.get? other = some d →
      passed.columns.get? other ≠ some d → key ≤ other := by
    intro d hd hnot
    rcases get?_cases hentries hd with hin | ⟨rfl, -⟩ | hgt
    · exact absurd (Keyed.get?_eq_some_iff.2 hin) hnot
    · exact le_rfl
    · exact hgt.le
  cases h with
  | name hd hname => exact hbehind hd fun hin => hname (hpassed.column_name hin)
  | type hd htype =>
    refine hbehind hd fun hin => ?_
    obtain ⟨d, hknown⟩ := hpassed.column_type hin
    exact nomatch htype.symm.trans hknown
  | primaryKey hd hprimary hfirst hlt =>
    refine hbehind hd fun hin => ?_
    -- the first primary key is before the second one, so it was passed as well
    obtain ⟨⟨e, he, heprimary⟩, -⟩ := hfirst
    have hother := (get?_of_mem_before hentries (Keyed.get?_eq_some_iff.1 hin)).2
    rcases get?_cases hentries he with hein | ⟨rfl, -⟩ | hgt
    · exact hlt.ne
        (hpassed.primary_unique (Keyed.get?_eq_some_iff.2 hein) hin heprimary hprimary)
    · exact lt_asymm hlt hother
    · exact lt_asymm hlt (hother.trans hgt)

/-- Of the checks of a column a scan stops at the first that fails. -/
theorem StopsAt.rank_le {passed : List (String × Column)} {check check' : ColumnCheck}
    {defect defect' : Defect} (h : StopsAt passed key c check defect)
    (hc : table.columns.get? key = some c) (h' : table.HasDefect key check' defect') :
    check.rank ≤ check'.rank := by
  cases h with
  | name => exact Nat.zero_le _
  | type hname =>
    cases h' with
    | name hd hname' =>
      obtain rfl := Option.some.inj (hc.symm.trans hd)
      exact absurd hname hname'
    | type => exact le_rfl
    | primaryKey => exact Nat.le_succ _
  | primaryKey hname htype =>
    cases h' with
    | name hd hname' =>
      obtain rfl := Option.some.inj (hc.symm.trans hd)
      exact absurd hname hname'
    | type hd htype' =>
      obtain rfl := Option.some.inj (hc.symm.trans hd)
      exact absurd htype' htype
    | primaryKey => exact le_rfl

end Split

/-- A table that fails its validation is reported with its first defect. -/
theorem exists_first_of_validate {table : Table} {fault : SchemaFault}
    (h : table.validate = .error fault) : ∃ column check defect,
      fault = ⟨table.name, column, defect⟩ ∧ table.HasDefect column check defect ∧
        ∀ {column' check' defect'}, table.HasDefect column' check' defect' →
          column < column' ∨ (column = column' ∧ check.rank ≤ check'.rank) := by
  have hstops : Stops table.name [] none table.columns.entries fault :=
    stops_of_validateColumns (fun _ h => nomatch h) h
  obtain ⟨before, key, c, after, check, defect, hentries, hok, hstop, rfl⟩ := hstops
  refine ⟨key, check, defect, rfl, hstop.hasDefect hentries hok, fun hdefect => ?_⟩
  rcases (hdefect.key_le hentries hok).lt_or_eq with hlt | rfl
  · exact .inl hlt
  · refine .inr ⟨rfl, hstop.rank_le ?_ hdefect⟩
    rw [Keyed.get?_eq_some_iff, hentries]
    exact List.mem_append_right _ List.mem_cons_self

end Table

namespace Schema

/-- A scan of tables that fails passes some, and stops at the next one: for its key, or for
its columns. -/
theorem exists_of_validateTables {entries : List (String × Table)} {fault : SchemaFault}
    (h : validateTables entries = .error fault) :
    ∃ before key t after, entries = before ++ (key, t) :: after ∧
      (∀ e ∈ before, e.2.name = e.1 ∧ e.2.WellFormed) ∧
      ((t.name ≠ key ∧ fault = ⟨key, "", .tableKey key t.name⟩) ∨
        (t.name = key ∧ t.validate = .error fault)) := by
  induction entries with
  | nil => exact nomatch h
  | cons entry rest ih =>
    obtain ⟨key, t⟩ := entry
    have hnone : ∀ e ∈ ([] : List (String × Table)), e.2.name = e.1 ∧ e.2.WellFormed :=
      List.forall_mem_nil _
    by_cases hname : t.name = key
    · cases htable : t.validate with
      | error fault' =>
        have hfault : fault' = fault := by simpa [validateTables, hname, htable] using h
        exact ⟨[], key, t, rest, rfl, hnone, .inr ⟨hname, hfault ▸ htable⟩⟩
      | ok _ =>
        have hrest : validateTables rest = .error fault := by
          simpa [validateTables, hname, htable] using h
        obtain ⟨before, key', t', after, rfl, hbefore, hstop⟩ := ih hrest
        refine ⟨(key, t) :: before, key', t', after, rfl, ?_, hstop⟩
        exact List.forall_mem_cons.2 ⟨⟨hname, (Table.validate_eq_ok_iff t).1 htable⟩, hbefore⟩
    · have hfault : fault = ⟨key, "", .tableKey key t.name⟩ := by
        simpa [validateTables, hname] using h.symm
      exact ⟨[], key, t, rest, rfl, hnone, .inl ⟨hname, hfault⟩⟩

/-- A schema that fails its validation is reported with its first defect. -/
theorem firstFault_of_validate {schema : Schema} {fault : SchemaFault}
    (h : schema.validate = .error fault) : schema.FirstFault fault := by
  obtain ⟨before, key, t, after, hentries, hbefore, hstop⟩ := exists_of_validateTables h
  have ht : schema.tables.get? key = some t := by
    rw [Keyed.get?_eq_some_iff, hentries]
    exact List.mem_append_right _ List.mem_cons_self
  -- tables before that at which the scan stops have no defect
  have hkey : ∀ {other fault'}, schema.HasDefect other fault' → key ≤ other.tableKey := by
    have hbehind : ∀ {key' : String} {u : Table}, schema.tables.get? key' = some u →
        ¬ (u.name = key' ∧ u.WellFormed) → key ≤ key' := by
      intro key' u hu hnot
      rw [Keyed.get?_eq_some_iff, hentries, List.mem_append, List.mem_cons] at hu
      rcases hu with hu | hu | hu
      · exact absurd (hbefore _ hu) hnot
      · exact le_of_eq (Prod.mk.inj hu).1.symm
      · exact ((Keyed.lt_of_entries_eq hentries).2 _ hu).le
    intro other fault' hdefect
    cases hdefect with
    | table hu hname => exact hbehind hu fun hgood => hname hgood.1
    | column hu hdefect => exact hbehind hu fun hgood => hgood.2.not_hasDefect hdefect
  rcases hstop with ⟨hname, rfl⟩ | ⟨hname, htable⟩
  · refine ⟨.table key, .table ht hname, fun {other _} hdefect => ?_⟩
    rcases (hkey hdefect).lt_or_eq with hlt | heq
    · exact Site.le_of_tableKey_lt hlt
    · rw [heq]
      exact other.table_tableKey_le
  · obtain ⟨column, check, defect, rfl, hdefect, hleast⟩ :=
      Table.exists_first_of_validate htable
    refine ⟨.column key column check, .column ht hdefect, fun {other _} hother => ?_⟩
    rcases (hkey hother).lt_or_eq with hlt | heq
    · exact Site.le_of_tableKey_lt hlt
    · cases hother with
      | table hu hname' =>
        obtain rfl : key = _ := heq
        obtain rfl := Option.some.inj (ht.symm.trans hu)
        exact absurd hname hname'
      | column hu hdefect' =>
        obtain rfl : key = _ := heq
        obtain rfl := Option.some.inj (ht.symm.trans hu)
        exact Site.column_le_column (hleast hdefect')

/-- Validation reports the first defect, and none but that. -/
theorem validate_eq_error_iff {schema : Schema} {fault : SchemaFault} :
    schema.validate = .error fault ↔ schema.FirstFault fault := by
  constructor
  · exact firstFault_of_validate
  · intro h
    cases hvalid : schema.validate with
    | error fault' => rw [(firstFault_of_validate hvalid).unique h]
    | ok _ =>
      obtain ⟨site, hdefect, -⟩ := h
      exact absurd hdefect ((validate_eq_ok_iff schema).1 hvalid).not_hasDefect

/-- A comparison fails with the fault of the target, or else with that of the current
schema. -/
theorem diff_eq_error_iff {target current : Schema} {database : String} {fault : SchemaFault} :
    target.diff current database = .error fault ↔
      target.validate = .error fault ∨
        (target.validate = .ok () ∧ current.validate = .error fault) := by
  rw [diff]
  cases target.validate with
  | error _ => simp
  | ok _ => cases current.validate <;> simp

/-- There is a comparison exactly between well-formed schemas. -/
theorem exists_diff_eq_ok_iff {target current : Schema} {database : String} :
    (∃ comparison, target.diff current database = .ok comparison) ↔
      target.WellFormed ∧ current.WellFormed := by
  constructor
  · rintro ⟨comparison, h⟩
    rw [diff] at h
    split at h
    · exact nomatch h
    · next htarget =>
      split at h
      · exact nomatch h
      · next hcurrent =>
        exact ⟨(validate_eq_ok_iff target).1 htarget, (validate_eq_ok_iff current).1 hcurrent⟩
  · rintro ⟨htarget, hcurrent⟩
    exact ⟨_, diff_of_wellFormed htarget hcurrent database⟩

end Schema

/-- A schema is valid exactly if it is well-formed, and fails its validation exactly with
the defect at the least of the sites where it has one.  Two schemas are compared exactly
if both are well-formed; otherwise the comparison fails with the first defect of the
target, or with that of the current schema if the target has none. -/
theorem validate_reports_first (target current : Schema) (database : String) :
    (target.validate = .ok () ↔ target.WellFormed) ∧
    (∀ fault, target.validate = .error fault ↔ target.FirstFault fault) ∧
    ((∃ comparison, target.diff current database = .ok comparison) ↔
      target.WellFormed ∧ current.WellFormed) ∧
    ∀ fault, target.diff current database = .error fault ↔
      target.FirstFault fault ∨ (target.WellFormed ∧ current.FirstFault fault) := by
  refine ⟨Schema.validate_eq_ok_iff target, fun fault => Schema.validate_eq_error_iff,
    Schema.exists_diff_eq_ok_iff, fun fault => ?_⟩
  rw [Schema.diff_eq_error_iff, Schema.validate_eq_error_iff, Schema.validate_eq_error_iff,
    Schema.validate_eq_ok_iff]

/-- Of four defects the first is reported: a table before the next one, a column before the
next one, the name of a column before its type. -/
example : Schema.validate { tables := .ofList [
    ("sea", { name := "sea", columns := .ofList [
      ("depth", { name := "deep", dataType := "fathom" }),
      ("salt", { name := "salt", dataType := "taste" })] }),
    ("ship", { name := "boat" })] }
      = .error ⟨"sea", "depth", .columnKey "depth" "deep"⟩ := by
  decide +kernel

end SchemaPlan
