import SchemaPlan.Model.Validation
import SchemaPlan.Plan.Diff
import SchemaPlan.Proofs.Keyed
set_option autoImplicit false

/-!
# Well-formed schemas

The four facts that validation checks, said without the order in which it looks
for them: `validate_eq_ok_iff` says that a schema passes exactly if they hold.
Planning and replaying rely on them and never on the scan itself.
-/

namespace SchemaPlan

/-! ## Tables -/

/-- The columns of a table are held under their own names, their types are
known, and at most one of them carries the primary key. -/
structure Table.WellFormed (table : Table) : Prop where
  column_name : ∀ {key : String} {c : Column}, table.columns.get? key = some c → c.name = key
  column_type : ∀ {key : String} {c : Column}, table.columns.get? key = some c →
    ∃ d : DataType, c.type? = some d
  primary_unique : ∀ {key other : String} {c d : Column}, table.columns.get? key = some c →
    table.columns.get? other = some d → c.columnKey = .primary → d.columnKey = .primary →
      key = other

namespace Table

/-- What a scan accepts: each entry by itself, no second primary key among the
entries, and none at all after one was met before. -/
theorem validateColumns_eq_ok_iff {table : String} {entries : List (String × Column)} :
    ∀ {met : Option String}, validateColumns table met entries = .ok () ↔
      (∀ e ∈ entries, e.2.name = e.1 ∧ e.2.type?.isSome = true) ∧
      (met.isSome = true → ∀ e ∈ entries, e.2.columnKey ≠ .primary) ∧
      entries.Pairwise fun d e => d.2.columnKey = .primary → e.2.columnKey ≠ .primary := by
  induction entries with
  | nil => simp [validateColumns]
  | cons entry rest ih =>
    intro met
    obtain ⟨key, c⟩ := entry
    unfold validateColumns
    by_cases hname : c.name = key
    · cases htype : c.type? with
      | none => simp [hname, htype]
      | some d =>
        by_cases hkey : c.columnKey = .primary
        · cases met with
          | none => simp [hname, htype, hkey, ih]
          | some first => simp [hname, htype, hkey]
        · simp [hname, htype, hkey, ih]
    · simp [hname]

/-- A table passes its validation exactly if it is well-formed. -/
theorem validate_eq_ok_iff (table : Table) : table.validate = .ok () ↔ table.WellFormed := by
  unfold validate
  rw [validateColumns_eq_ok_iff]
  constructor
  · rintro ⟨hentry, -, honce⟩
    refine ⟨fun h => (hentry _ (Keyed.get?_eq_some_iff.1 h)).1,
      fun h => Option.isSome_iff_exists.1 (hentry _ (Keyed.get?_eq_some_iff.1 h)).2, ?_⟩
    have hall := List.Pairwise.forall_of_forall_of_flip
      (R := fun d e : String × Column =>
        d.2.columnKey = .primary → e.2.columnKey = .primary → d.1 = e.1)
      (fun _ _ _ _ => rfl)
      (honce.imp fun h hd he => absurd he (h hd))
      (honce.imp fun h he hd => absurd he (h hd))
    intro key other c d hc hd
    exact hall (Keyed.get?_eq_some_iff.1 hc) (Keyed.get?_eq_some_iff.1 hd)
  · intro h
    refine ⟨fun e he => ?_, by simp, ?_⟩
    · have hget := Keyed.get?_eq_some_iff.2 he
      exact ⟨h.column_name hget, Option.isSome_iff_exists.2 (h.column_type hget)⟩
    · refine table.columns.ascending.imp_of_mem fun {d e} hd he hlt hdp hep => ?_
      have heq := h.primary_unique (Keyed.get?_eq_some_iff.2 hd) (Keyed.get?_eq_some_iff.2 he)
        hdp hep
      exact String.lt_irrefl _ (heq ▸ hlt)

end Table

/-! ## Schemas -/

/-- The tables of a schema are held under their own names and are well-formed. -/
structure Schema.WellFormed (schema : Schema) : Prop where
  table_name : ∀ {key : String} {t : Table}, schema.tables.get? key = some t → t.name = key
  table : ∀ {key : String} {t : Table}, schema.tables.get? key = some t → t.WellFormed

namespace Schema

theorem validateTables_eq_ok_iff {entries : List (String × Table)} :
    validateTables entries = .ok () ↔ ∀ e ∈ entries, e.2.name = e.1 ∧ e.2.WellFormed := by
  induction entries with
  | nil => simp [validateTables]
  | cons entry rest ih =>
    obtain ⟨key, table⟩ := entry
    unfold validateTables
    by_cases hname : table.name = key
    · cases htable : table.validate with
      | error fault =>
        have hbad : ¬ table.WellFormed := by
          rw [← Table.validate_eq_ok_iff, htable]
          simp
        simp [hname, hbad]
      | ok _ =>
        have hgood : table.WellFormed := (Table.validate_eq_ok_iff table).1 htable
        simp [hname, hgood, ih]
    · simp [hname]

/-- A schema passes its validation exactly if it is well-formed. -/
theorem validate_eq_ok_iff (schema : Schema) :
    schema.validate = .ok () ↔ schema.WellFormed := by
  unfold validate
  rw [validateTables_eq_ok_iff]
  constructor
  · intro h
    exact ⟨fun hget => (h _ (Keyed.get?_eq_some_iff.1 hget)).1,
      fun hget => (h _ (Keyed.get?_eq_some_iff.1 hget)).2⟩
  · intro h e he
    have hget := Keyed.get?_eq_some_iff.2 he
    exact ⟨h.table_name hget, h.table hget⟩

/-- Between two well-formed schemas there is a comparison, and it lists the plan. -/
theorem diff_of_wellFormed {target current : Schema} (htarget : target.WellFormed)
    (hcurrent : current.WellFormed) (database : String) :
    target.diff current database
      = .ok (.ofStatements database (target.plan current database)) := by
  unfold diff
  rw [(validate_eq_ok_iff target).2 htarget, (validate_eq_ok_iff current).2 hcurrent]

end Schema

end SchemaPlan
