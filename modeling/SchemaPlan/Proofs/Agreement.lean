import Mathlib.Data.List.Sort
import SchemaPlan.Proofs.Pairing
import SchemaPlan.Proofs.WellFormed
set_option autoImplicit false

/-!
# When there is nothing to change

A plan compares only part of a schema.  `Schema.Agrees` says which part: the
defaults, unless the target leaves its character set open, the names of tables
and columns, the character set and collation of a table, and of a column its
type, character set, collation, greatest length and key.  Two keys agree also
where one is the primary key and the other an index of its own, since no plan
leads from one to the other.  Between two valid schemas there is nothing to
change exactly if they agree (`diff_changes_eq_nil_iff`): what else differs is not seen.
-/

namespace SchemaPlan

/-! ## Agreement -/

/-- A key is that of an index other than the primary one. -/
def ColumnKey.IsIndex (key : ColumnKey) : Prop := key = .unique ∨ key = .multiple

/-- Two keys between which a plan has nothing to do. -/
def ColumnKey.Agrees (a b : ColumnKey) : Prop :=
  a = b ∨ (a = .primary ∧ b.IsIndex) ∨ (b = .primary ∧ a.IsIndex)

instance (key : ColumnKey) : Decidable key.IsIndex := inferInstanceAs (Decidable (_ ∨ _))

instance (a b : ColumnKey) : Decidable (a.Agrees b) := inferInstanceAs (Decidable (_ ∨ _))

/-- Two columns agree in all that a plan compares. -/
structure Column.Agrees (a b : Column) : Prop where
  type? : a.type? = b.type?
  charSet : a.charSet = b.charSet
  collation : a.collation = b.collation
  maxLength : a.maxLength = b.maxLength
  columnKey : a.columnKey.Agrees b.columnKey

/-- Two tables agree in all that a plan compares. -/
structure Table.Agrees (a b : Table) : Prop where
  characterSet : a.characterSet = b.characterSet
  collation : a.collation = b.collation
  names : a.columns.keys = b.columns.keys
  column : ∀ {key : String} {c d : Column}, a.columns.get? key = some c →
    b.columns.get? key = some d → c.Agrees d

/-- A schema agrees with a target in all that a plan compares; the defaults
count only if the target names a character set. -/
structure Schema.Agrees (target current : Schema) : Prop where
  defaults : target.defaultCharacterSet = "" ∨
    (target.defaultCharacterSet = current.defaultCharacterSet ∧
      target.defaultCollation = current.defaultCollation)
  names : target.tables.keys = current.tables.keys
  table : ∀ {key : String} {t u : Table}, target.tables.get? key = some t →
    current.tables.get? key = some u → t.Agrees u

theorem Column.Agrees.refl (c : Column) : c.Agrees c :=
  ⟨rfl, rfl, rfl, rfl, .inl rfl⟩

theorem Table.Agrees.refl (t : Table) : t.Agrees t := by
  refine ⟨rfl, rfl, rfl, fun {key c d} hc hd => ?_⟩
  obtain rfl := Option.some.inj (hc.symm.trans hd)
  exact .refl c

theorem Schema.Agrees.refl (schema : Schema) : schema.Agrees schema := by
  refine ⟨.inr ⟨rfl, rfl⟩, rfl, fun {key t u} ht hu => ?_⟩
  obtain rfl := Option.some.inj (ht.symm.trans hu)
  exact .refl t

/-! ## Pairings without a part -/

/-- No part of a pairing is there exactly if there is nothing to pair. -/
theorem pairUp_eq_nil_iff {α β : Type} {matches? : α → β → Bool}
    {gone : List α} {new : List β} :
    (pairUp matches? gone new).pairs = [] ∧ (pairUp matches? gone new).gone = [] ∧
        (pairUp matches? gone new).new = [] ↔ gone = [] ∧ new = [] := by
  have hgone := gone_perm_pairUp matches? gone new
  have hnew := new_perm_pairUp matches? gone new
  constructor
  · rintro ⟨h1, h2, h3⟩
    rw [h1, h2] at hgone
    rw [h1, h3] at hnew
    exact ⟨hgone.eq_nil, hnew.eq_nil⟩
  · rintro ⟨rfl, rfl⟩
    exact ⟨rfl, rfl, rfl⟩

/-- Nothing goes and nothing comes exactly if two maps have the same keys. -/
theorem without_eq_nil_iff_keys {α β : Type} {target : Keyed α} {current : Keyed β} :
    current.without target = [] ∧ target.without current = [] ↔ target.keys = current.keys := by
  rw [Keyed.without_eq_nil_iff, Keyed.without_eq_nil_iff, Keyed.keys_eq_iff]
  constructor
  · rintro ⟨hcurrent, htarget⟩ key
    exact ⟨htarget key, hcurrent key⟩
  · intro h
    exact ⟨fun key => (h key).2, fun key => (h key).1⟩

/-- Blocks that are never empty make an empty list of none. -/
theorem flatMap_eq_nil_iff_of_ne {α β : Type} {list : List α} {block : α → List β}
    (h : ∀ a, block a ≠ []) : list.flatMap block = [] ↔ list = [] := by
  cases list with
  | nil => simp
  | cons a rest => simp [h a]

/-! ## Tables -/

theorem keyTransition_eq_nil_iff {table column : String} {before after : ColumnKey} :
    keyTransition table column before after = [] ↔ after.Agrees before := by
  unfold ColumnKey.Agrees ColumnKey.IsIndex
  cases before <;> cases after <;> simp [keyTransition]

theorem Column.differs_eq_false_iff {a b : Column} :
    a.differs b = false ↔ a.type? = b.type? ∧ a.charSet = b.charSet ∧
      a.collation = b.collation ∧ a.maxLength = b.maxLength := by
  simp only [differs, Bool.or_eq_false_iff, bne_eq_false_iff_eq, and_assoc]

namespace Table

theorem sharedColumnStatements_eq_nil_iff {target : Table} {c d : Column} :
    target.sharedColumnStatements (c, d) = [] ↔ c.Agrees d := by
  rw [sharedColumnStatements, List.append_eq_nil_iff, keyTransition_eq_nil_iff]
  constructor
  · rintro ⟨hkey, hsame⟩
    split at hsame
    · exact nomatch hsame
    · next hdiffers =>
      rw [Bool.not_eq_true, Column.differs_eq_false_iff] at hdiffers
      obtain ⟨htype, hset, hcollation, hlength⟩ := hdiffers
      exact ⟨htype, hset, hcollation, hlength, hkey⟩
  · intro h
    have hdiffers :=
      Column.differs_eq_false_iff.2 ⟨h.type?, h.charSet, h.collation, h.maxLength⟩
    refine ⟨h.columnKey, ?_⟩
    rw [if_neg (by rw [hdiffers]; exact Bool.false_ne_true)]

theorem conversion_eq_nil_iff {target current : Table} :
    target.conversion current = [] ↔
      target.characterSet = current.characterSet ∧ target.collation = current.collation := by
  rw [conversion, ite_eq_right_iff]
  simp

/-- A table is converted unless both its character set and its collation agree. -/
theorem conversion_eq (target current : Table) : target.conversion current
    = if target.characterSet = current.characterSet ∧ target.collation = current.collation
      then []
      else [.convertTable target.name target.characterSet target.collation] := by
  split
  · next hsame => exact conversion_eq_nil_iff.2 hsame
  · next hdiffers =>
    rw [conversion, if_pos]
    rw [Bool.or_eq_true, bne_iff_ne, bne_iff_ne]
    exact not_and_or.1 hdiffers

theorem columnPairing_eq_nil_iff {target current : Table} :
    (target.columnPairing current).pairs = [] ∧ (target.columnPairing current).gone = [] ∧
        (target.columnPairing current).new = [] ↔
      target.columns.keys = current.columns.keys :=
  pairUp_eq_nil_iff.trans without_eq_nil_iff_keys

/-- The plan of a table is empty exactly if the tables agree. -/
theorem plan_eq_nil_iff {target current : Table} :
    target.plan current = [] ↔ target.Agrees current := by
  have hgone : (target.columnPairing current).gone.flatMap (target.dropColumnStatements current)
      = [] ↔ (target.columnPairing current).gone = [] :=
    flatMap_eq_nil_iff_of_ne fun _ =>
      List.append_ne_nil_of_right_ne_nil _ (List.cons_ne_nil _ _)
  have hnew : (target.columnPairing current).new.flatMap target.addColumnStatements
      = [] ↔ (target.columnPairing current).new = [] :=
    flatMap_eq_nil_iff_of_ne fun _ => List.cons_ne_nil _ _
  have hplan : target.plan current = [] ↔ target.conversion current = [] ∧
      target.columns.keys = current.columns.keys ∧
      ∀ pair ∈ target.columns.common current.columns,
        target.sharedColumnStatements pair = [] := by
    rw [← columnPairing_eq_nil_iff]
    simp only [plan, List.append_eq_nil_iff, List.map_eq_nil_iff, hgone, hnew,
      List.flatMap_eq_nil_iff, and_assoc]
  rw [hplan, conversion_eq_nil_iff]
  constructor
  · rintro ⟨⟨hset, hcollation⟩, hkeys, hcommon⟩
    refine ⟨hset, hcollation, hkeys, fun {key c d} hc hd => ?_⟩
    exact sharedColumnStatements_eq_nil_iff.1
      (hcommon (c, d) (Keyed.mem_common.2 ⟨key, hc, hd⟩))
  · intro h
    refine ⟨⟨h.characterSet, h.collation⟩, h.names, fun pair hpair => ?_⟩
    obtain ⟨c, d⟩ := pair
    obtain ⟨key, hc, hd⟩ := Keyed.mem_common.1 hpair
    exact sharedColumnStatements_eq_nil_iff.2 (h.column hc hd)

end Table

/-! ## Schemas -/

namespace Schema

theorem defaultsStatement_eq_nil_iff {target current : Schema} {database : String} :
    target.defaultsStatement current database = [] ↔ target.defaultCharacterSet = "" ∨
      (target.defaultCharacterSet = current.defaultCharacterSet ∧
        target.defaultCollation = current.defaultCollation) := by
  rw [defaultsStatement, ite_eq_right_iff]
  by_cases hset : target.defaultCharacterSet = ""
  · simp [hset]
  · simp [hset]

theorem tablePairing_eq_nil_iff {target current : Schema} :
    (target.tablePairing current).pairs = [] ∧ (target.tablePairing current).gone = [] ∧
        (target.tablePairing current).new = [] ↔
      target.tables.keys = current.tables.keys :=
  pairUp_eq_nil_iff.trans without_eq_nil_iff_keys

/-- The plan of a schema is empty exactly if the schemas agree. -/
theorem plan_eq_nil_iff {target current : Schema} {database : String} :
    target.plan current database = [] ↔ target.Agrees current := by
  have hnew : (target.tablePairing current).new.flatMap (fun new => new.2.creation)
      = [] ↔ (target.tablePairing current).new = [] :=
    flatMap_eq_nil_iff_of_ne fun _ => List.cons_ne_nil _ _
  have hplan : target.plan current database = [] ↔
      target.defaultsStatement current database = [] ∧
      target.tables.keys = current.tables.keys ∧
      ∀ pair ∈ target.tables.common current.tables, pair.1.plan pair.2 = [] := by
    rw [← tablePairing_eq_nil_iff]
    simp only [plan, List.append_eq_nil_iff, List.map_eq_nil_iff, hnew, List.flatMap_eq_nil_iff]
    tauto
  rw [hplan, defaultsStatement_eq_nil_iff]
  constructor
  · rintro ⟨hdefaults, hkeys, hcommon⟩
    refine ⟨hdefaults, hkeys, fun {key t u} ht hu => ?_⟩
    exact Table.plan_eq_nil_iff.1 (hcommon (t, u) (Keyed.mem_common.2 ⟨key, ht, hu⟩))
  · intro h
    refine ⟨h.defaults, h.names, fun pair hpair => ?_⟩
    obtain ⟨t, u⟩ := pair
    obtain ⟨key, ht, hu⟩ := Keyed.mem_common.1 hpair
    exact Table.plan_eq_nil_iff.2 (h.table ht hu)

/-- The comparison of a schema with one that it agrees with is empty, and all its
counters are 0. -/
theorem diff_of_agrees {target current : Schema} (htarget : target.WellFormed)
    (hcurrent : current.WellFormed) (h : target.Agrees current) (database : String) :
    target.diff current database = .ok { database := database } := by
  rw [diff_of_wellFormed htarget hcurrent, plan_eq_nil_iff.2 h]
  rfl

end Schema

/-! ## What is not seen -/

/-- A column with all that a plan does not compare taken from another. -/
def Column.withUnseen (c other : Column) : Column :=
  { other with
    name := c.name
    dataType := c.dataType
    charSet := c.charSet
    collation := c.collation
    maxLength := c.maxLength
    columnKey := c.columnKey }

/-- A table with all that a plan does not compare taken from another. -/
def Table.withUnseen (t other : Table) : Table :=
  { other with
    name := t.name
    characterSet := t.characterSet
    collation := t.collation
    columns := t.columns.mapValues fun key c => c.withUnseen ((other.columns.get? key).getD c) }

/-- A schema with all that a plan does not compare taken from another. -/
def Schema.withUnseen (schema other : Schema) : Schema :=
  { schema with
    name := other.name
    tables := schema.tables.mapValues fun key t =>
      t.withUnseen ((other.tables.get? key).getD t) }

theorem Column.agrees_withUnseen (c other : Column) : c.Agrees (c.withUnseen other) :=
  ⟨rfl, rfl, rfl, rfl, .inl rfl⟩

theorem Table.get?_withUnseen {t other : Table} {key : String} {d : Column}
    (h : (t.withUnseen other).columns.get? key = some d) :
    ∃ c e : Column, t.columns.get? key = some c ∧ d = c.withUnseen e := by
  obtain ⟨c, hc, rfl⟩ := Keyed.get?_mapValues_eq_some_iff.1 h
  exact ⟨c, _, hc, rfl⟩

theorem Table.agrees_withUnseen (t other : Table) : t.Agrees (t.withUnseen other) := by
  refine ⟨rfl, rfl, (Keyed.keys_mapValues _ _).symm, fun {key c d} hc hd => ?_⟩
  obtain ⟨c', e, hc', rfl⟩ := get?_withUnseen hd
  obtain rfl := Option.some.inj (hc.symm.trans hc')
  exact c.agrees_withUnseen e

theorem Table.WellFormed.withUnseen {t : Table} (h : t.WellFormed) (other : Table) :
    (t.withUnseen other).WellFormed := by
  constructor
  · intro key d hd
    obtain ⟨c, e, hc, rfl⟩ := get?_withUnseen hd
    exact (h.column_name hc :)
  · intro key d hd
    obtain ⟨c, e, hc, rfl⟩ := get?_withUnseen hd
    exact (h.column_type hc :)
  · intro key key' d d' hd hd' hkey hkey'
    obtain ⟨c, e, hc, rfl⟩ := get?_withUnseen hd
    obtain ⟨c', e', hc', rfl⟩ := get?_withUnseen hd'
    exact h.primary_unique hc hc' hkey hkey'

theorem Schema.get?_withUnseen {schema other : Schema} {key : String} {u : Table}
    (h : (schema.withUnseen other).tables.get? key = some u) :
    ∃ t v : Table, schema.tables.get? key = some t ∧ u = t.withUnseen v := by
  obtain ⟨t, ht, rfl⟩ := Keyed.get?_mapValues_eq_some_iff.1 h
  exact ⟨t, _, ht, rfl⟩

theorem Schema.agrees_withUnseen (schema other : Schema) :
    schema.Agrees (schema.withUnseen other) := by
  refine ⟨.inr ⟨rfl, rfl⟩, (Keyed.keys_mapValues _ _).symm, fun {key t u} ht hu => ?_⟩
  obtain ⟨t', v, ht', rfl⟩ := get?_withUnseen hu
  obtain rfl := Option.some.inj (ht.symm.trans ht')
  exact t.agrees_withUnseen v

theorem Schema.WellFormed.withUnseen {schema : Schema} (h : schema.WellFormed)
    (other : Schema) : (schema.withUnseen other).WellFormed := by
  constructor
  · intro key u hu
    obtain ⟨t, v, ht, rfl⟩ := get?_withUnseen hu
    exact (h.table_name ht :)
  · intro key u hu
    obtain ⟨t, v, ht, rfl⟩ := get?_withUnseen hu
    exact (h.table ht).withUnseen v

/-- Between two valid schemas there is a comparison, and it has no changes exactly
if they agree.  So a schema compared with itself, or with one that differs from
it only in what a plan does not compare, gives the empty comparison. -/
theorem diff_changes_eq_nil_iff {target current : Schema} (htarget : target.validate = .ok ())
    (hcurrent : current.validate = .ok ()) (database : String) :
    (∃ comparison, target.diff current database = .ok comparison ∧
        (comparison.changes = [] ↔ target.Agrees current)) ∧
      target.diff target database = .ok { database := database } ∧
      ∀ other,
        target.diff (target.withUnseen other) database = .ok { database := database } := by
  have htarget' := (Schema.validate_eq_ok_iff target).1 htarget
  have hcurrent' := (Schema.validate_eq_ok_iff current).1 hcurrent
  refine ⟨⟨_, Schema.diff_of_wellFormed htarget' hcurrent' database, ?_⟩,
    Schema.diff_of_agrees htarget' htarget' (.refl target) database, fun other => ?_⟩
  · rw [Comparison.changes_ofStatements, List.map_eq_nil_iff, Schema.plan_eq_nil_iff]
  · exact Schema.diff_of_agrees htarget' (htarget'.withUnseen other)
      (target.agrees_withUnseen other) database

/-- A price list. -/
def priceList : Schema where
  tables := .ofList [
    ("price", { name := "price", engine := "InnoDB", columns := .ofList [
      ("amount", { name := "amount", dataType := "DECIMAL", precision := 10 }),
      ("item", { name := "item", dataType := "int", columnKey := .primary })] })]
  defaultCharacterSet := "utf8mb4"

/-- The price list with other spellings, another engine and another precision. -/
def restatedPriceList : Schema where
  tables := .ofList [
    ("price", { name := "price", engine := "Aria", columns := .ofList [
      ("amount", { name := "amount", dataType := "decimal", precision := 12 }),
      ("item", { name := "item", dataType := "INT", extra := "x", columnKey := .unique })] })]
  defaultCharacterSet := "utf8mb4"

theorem diff_changes_eq_nil_iff_priceList :
    (priceList.validate = .ok () ∧ restatedPriceList.validate = .ok ()) ∧
      (∃ comparison, priceList.diff restatedPriceList "shop" = .ok comparison ∧
        (comparison.changes = [] ↔ priceList.Agrees restatedPriceList)) ∧
      priceList.diff priceList "shop" = .ok { database := "shop" } ∧
      ∀ other,
        priceList.diff (priceList.withUnseen other) "shop" = .ok { database := "shop" } :=
  ⟨by decide +kernel, diff_changes_eq_nil_iff (by decide +kernel) (by decide +kernel) "shop"⟩

end SchemaPlan
