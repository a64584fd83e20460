import Mathlib.Data.List.Forall2
import SchemaPlan.Proofs.Listing
set_option autoImplicit false

/-!
# What a plan sees of the current schema

Of the schema that is there a plan sees the defaults, the names of tables and
columns, the character set and collation of a table, and of a column its type,
character set, collation, greatest length and key.  Two schemas that are alike in
these lead to the same comparison with any target (`diff_eq_of_alike`): whatever
else the catalog says about columns and tables does not get into a statement.

The pairings are where this could fail, as they walk over the columns and tables
that go.  Two lists that are alike element by element are paired alike
(`pairUp_alike`), so the statements that follow are the same.
-/

namespace SchemaPlan

/-! ## Likeness -/

/-- Two columns are alike in all that a plan sees of a column that is there. -/
structure Column.Alike (a b : Column) : Prop where
  type? : a.type? = b.type?
  charSet : a.charSet = b.charSet
  collation : a.collation = b.collation
  maxLength : a.maxLength = b.maxLength
  columnKey : a.columnKey = b.columnKey

/-- Two tables are alike in all that a plan sees of a table that is there. -/
structure Table.Alike (a b : Table) : Prop where
  characterSet : a.characterSet = b.characterSet
  collation : a.collation = b.collation
  names : a.columns.keys = b.columns.keys
  column : ∀ {key : String} {c d : Column}, a.columns.get? key = some c →
    b.columns.get? key = some d → c.Alike d

/-- Two schemas are alike in all that a plan sees of a schema that is there. -/
structure Schema.Alike (a b : Schema) : Prop where
  defaultCharacterSet : a.defaultCharacterSet = b.defaultCharacterSet
  defaultCollation : a.defaultCollation = b.defaultCollation
  names : a.tables.keys = b.tables.keys
  table : ∀ {key : String} {t u : Table}, a.tables.get? key = some t →
    b.tables.get? key = some u → t.Alike u

/-- What holds of the values that two maps hold under one key, said of their entries. -/
theorem Keyed.forall_get?_iff {α β : Type} {R : α → β → Prop} {a : Keyed α} {b : Keyed β} :
    (∀ {key v w}, a.get? key = some v → b.get? key = some w → R v w) ↔
      ∀ e ∈ a.entries, ∀ d ∈ b.entries, e.1 = d.1 → R e.2 d.2 := by
  constructor
  · intro h e he d hd hkey
    exact h (get?_eq_some_iff.2 he) (hkey ▸ get?_eq_some_iff.2 hd)
  · intro h key v w hv hw
    exact h _ (get?_eq_some_iff.1 hv) _ (get?_eq_some_iff.1 hw) rfl

instance (a b : Column) : Decidable (a.Alike b) :=
  decidable_of_iff (a.type? = b.type? ∧ a.charSet = b.charSet ∧ a.collation = b.collation ∧
      a.maxLength = b.maxLength ∧ a.columnKey = b.columnKey)
    ⟨fun ⟨htype, hset, hcollation, hlength, hkey⟩ => ⟨htype, hset, hcollation, hlength, hkey⟩,
      fun h => ⟨h.type?, h.charSet, h.collation, h.maxLength, h.columnKey⟩⟩

instance (a b : Table) : Decidable (a.Alike b) :=
  decidable_of_iff (a.characterSet = b.characterSet ∧ a.collation = b.collation ∧
      a.columns.keys = b.columns.keys ∧
      ∀ e ∈ a.columns.entries, ∀ d ∈ b.columns.entries, e.1 = d.1 → e.2.Alike d.2)
    ⟨fun ⟨hset, hcollation, hnames, h⟩ => ⟨hset, hcollation, hnames, Keyed.forall_get?_iff.2 h⟩,
      fun h => ⟨h.characterSet, h.collation, h.names, Keyed.forall_get?_iff.1 h.column⟩⟩

instance (a b : Schema) : Decidable (a.Alike b) :=
  decidable_of_iff (a.defaultCharacterSet = b.defaultCharacterSet ∧
      a.defaultCollation = b.defaultCollation ∧ a.tables.keys = b.tables.keys ∧
      ∀ e ∈ a.tables.entries, ∀ d ∈ b.tables.entries, e.1 = d.1 → e.2.Alike d.2)
    ⟨fun ⟨hset, hcollation, hnames, h⟩ => ⟨hset, hcollation, hnames, Keyed.forall_get?_iff.2 h⟩,
      fun h => ⟨h.defaultCharacterSet, h.defaultCollation, h.names,
        Keyed.forall_get?_iff.1 h.table⟩⟩

/-! ## Lists and maps that are alike -/

section Lists

variable {α α' β γ : Type} {R : α → α' → Prop}

/-- Elements that are alike are mapped to the same. -/
theorem map_eq_of_forall₂ {f : α → γ} {g : α' → γ} {l : List α} {l' : List α'}
    (h : List.Forall₂ R l l') (hfg : ∀ {a a'}, R a a' → f a = g a') : l.map f = l'.map g := by
  induction h with
  | nil => rfl
  | cons ha _ ih => rw [List.map_cons, List.map_cons, hfg ha, ih]

/-- Elements that are alike make the same blocks. -/
theorem flatMap_eq_of_forall₂ {f : α → List γ} {g : α' → List γ} {l : List α} {l' : List α'}
    (h : List.Forall₂ R l l') (hfg : ∀ {a a'}, R a a' → f a = g a') :
    l.flatMap f = l'.flatMap g := by
  rw [List.flatMap_def, List.flatMap_def, map_eq_of_forall₂ h hfg]

/-- Elements that are alike and match the same new ones are paired alike. -/
theorem pairUp_alike {f : α → β → Bool} {g : α' → β → Bool}
    (hmatch : ∀ {a a'}, R a a' → f a = g a') {gone : List α} {gone' : List α'}
    (h : List.Forall₂ R gone gone') : ∀ new : List β,
      List.Forall₂ (fun p p' => R p.1 p'.1 ∧ p.2 = p'.2) (pairUp f gone new).pairs
          (pairUp g gone' new).pairs ∧
        List.Forall₂ R (pairUp f gone new).gone (pairUp g gone' new).gone ∧
        (pairUp f gone new).new = (pairUp g gone' new).new := by
  induction h with
  | nil => intro new; exact ⟨.nil, .nil, rfl⟩
  | cons ha _ ih =>
    intro new
    unfold pairUp
    rw [hmatch ha]
    split
    · next b left _ =>
      obtain ⟨hpairs, hgone, hnew⟩ := ih left
      exact ⟨.cons ⟨ha, rfl⟩ hpairs, hgone, hnew⟩
    · obtain ⟨hpairs, hgone, hnew⟩ := ih new
      exact ⟨hpairs, .cons ha hgone, hnew⟩

end Lists

namespace Keyed

variable {α β γ : Type} {a b : Keyed α}

/-- Maps with the same keys have entries that are alike in what their values are
alike in. -/
theorem forall₂_entries {R : α → α → Prop} (hkeys : a.keys = b.keys)
    (h : ∀ {key v w}, a.get? key = some v → b.get? key = some w → R v w) :
    List.Forall₂ (fun e d => e.1 = d.1 ∧ R e.2 d.2) a.entries b.entries := by
  have hnames : List.Forall₂ (fun e d : String × α => e.1 = d.1) a.entries b.entries := by
    refine List.forall₂_map_right_iff.1 (List.forall₂_map_left_iff.1 ?_)
    rw [List.forall₂_eq_eq_eq]
    exact hkeys
  rw [List.forall₂_iff_zip] at hnames ⊢
  obtain ⟨hlength, hzip⟩ := hnames
  refine ⟨hlength, fun {e d} hmem => ?_⟩
  obtain ⟨he, hd⟩ := List.of_mem_zip hmem
  have hkey : e.1 = d.1 := hzip hmem
  refine ⟨hkey, h (get?_eq_some_iff.2 he) ?_⟩
  rw [hkey]
  exact get?_eq_some_iff.2 hd

/-- What another map lacks of two maps that are alike is alike. -/
theorem forall₂_without {R : α → α → Prop} (other : Keyed β) (hkeys : a.keys = b.keys)
    (h : ∀ {key v w}, a.get? key = some v → b.get? key = some w → R v w) :
    List.Forall₂ (fun e d => e.1 = d.1 ∧ R e.2 d.2) (a.without other) (b.without other) := by
  refine List.rel_filter (fun e d hed => ?_) (forall₂_entries hkeys h)
  simp only [hed.1]

/-- Two maps with the same keys lack the same of another. -/
theorem without_congr (other : Keyed β) (hkeys : a.keys = b.keys) :
    other.without a = other.without b := by
  refine List.filter_congr fun e _ => ?_
  have hcontains : a.contains e.1 = b.contains e.1 := by
    rw [Bool.eq_iff_iff, contains_eq_true_iff, contains_eq_true_iff, hkeys]
  rw [hcontains]

/-- Blocks for what a map shares with either of two maps are the same if they are so
for each key. -/
theorem flatMap_common_congr {other : Keyed β} {f : β × α → List γ} (hkeys : a.keys = b.keys)
    (h : ∀ {key v w w'}, other.get? key = some v → a.get? key = some w →
      b.get? key = some w' → f (v, w) = f (v, w')) :
    (other.common a).flatMap f = (other.common b).flatMap f := by
  have hblock : ∀ map : Keyed α, (other.common map).flatMap f
      = other.entries.flatMap fun e => ((map.get? e.1).map fun w => f (e.2, w)).getD [] := by
    intro map
    rw [common, List.filterMap_eq_flatMap_toList, List.flatMap_assoc]
    refine List.flatMap_congr fun e _ => ?_
    cases map.get? e.1 <;> simp
  rw [hblock, hblock]
  refine List.flatMap_congr fun e he => ?_
  cases ha : a.get? e.1 with
  | none =>
    have hb : b.get? e.1 = none := by
      rw [get?_eq_none_iff] at ha ⊢
      rwa [← hkeys]
    rw [hb]
  | some w =>
    obtain ⟨w', hb⟩ := mem_keys_iff.1 (hkeys ▸ mem_keys_of_get? ha)
    rw [hb, Option.map_some, Option.map_some, h (get?_eq_some_iff.2 he) ha hb]

end Keyed

/-! ## Tables -/

namespace Table

variable {target a b : Table}

/-- Tables that are alike lead to the same plan. -/
theorem plan_eq_of_alike (ha : a.WellFormed) (hb : b.WellFormed)
    (hname : a.name = b.name) (h : a.Alike b) : target.plan a = target.plan b := by
  have hgone := Keyed.forall₂_without (R := fun c d => c.Alike d ∧ c.name = d.name)
    target.columns h.names fun hc hd =>
      ⟨h.column hc hd, (ha.column_name hc).trans (hb.column_name hd).symm⟩
  have hnew := Keyed.without_congr target.columns h.names
  obtain ⟨hpairs, halone, hadded⟩ := pairUp_alike
    (f := fun (gone new : String × Column) => new.2.type? == gone.2.type?)
    (g := fun gone new => new.2.type? == gone.2.type?)
    (fun hcd => by rw [hcd.2.1.type?]) hgone (target.columns.without a.columns)
  have hconversion : target.conversion a = target.conversion b := by
    rw [conversion, conversion, h.characterSet, h.collation]
  have hrenamed := map_eq_of_forall₂ (γ := Statement)
    (f := fun pair => .changeColumn target.name pair.1.1 pair.2.2)
    (g := fun pair => .changeColumn target.name pair.1.1 pair.2.2) hpairs fun hpq => by
      rw [hpq.1.1, hpq.2]
  have hdropped := flatMap_eq_of_forall₂ (f := target.dropColumnStatements a)
    (g := target.dropColumnStatements b) halone fun hcd => by
      rw [dropColumnStatements, dropColumnStatements, hname, hcd.1, hcd.2.1.columnKey, hcd.2.2]
  have hshared : (target.columns.common a.columns).flatMap target.sharedColumnStatements
      = (target.columns.common b.columns).flatMap target.sharedColumnStatements := by
    refine Keyed.flatMap_common_congr h.names fun {key c d d'} _ hd hd' => ?_
    have hcd := h.column hd hd'
    have hdiffers : c.differs d = c.differs d' := by
      rw [Column.differs, Column.differs, hcd.type?, hcd.charSet, hcd.collation, hcd.maxLength]
    rw [sharedColumnStatements, sharedColumnStatements, hcd.columnKey, hdiffers]
  rw [hnew] at hpairs halone hadded hrenamed hdropped
  simp only [plan, columnPairing, hconversion, hrenamed, hdropped, hadded, hshared, hnew]

/-- Tables that are alike have the same column names as the same others. -/
theorem hasSameColumnNames_congr (h : a.columns.keys = b.columns.keys) :
    target.hasSameColumnNames a = target.hasSameColumnNames b := by
  rw [Bool.eq_iff_iff, hasSameColumnNames_iff, hasSameColumnNames_iff, h]

end Table

/-! ## Schemas -/

namespace Schema

variable {target a b : Schema}

/-- Schemas that are alike lead to the same plan. -/
theorem plan_eq_of_alike (ha : a.WellFormed) (hb : b.WellFormed)
    (h : a.Alike b) (database : String) : target.plan a database = target.plan b database := by
  have hgone := Keyed.forall₂_without (R := fun t u => t.columns.keys = u.columns.keys)
    target.tables h.names fun ht hu => (h.table ht hu).names
  have hnew := Keyed.without_congr target.tables h.names
  obtain ⟨hpairs, halone, hcreated⟩ := pairUp_alike
    (f := fun (gone new : String × Table) => new.2.hasSameColumnNames gone.2)
    (g := fun gone new => new.2.hasSameColumnNames gone.2)
    (fun htu => funext fun new => Table.hasSameColumnNames_congr htu.2) hgone
    (target.tables.without a.tables)
  have hdefaults : target.defaultsStatement a database
      = target.defaultsStatement b database := by
    rw [defaultsStatement, defaultsStatement, h.defaultCharacterSet, h.defaultCollation]
  have hshared : (target.tables.common a.tables).flatMap (fun pair => pair.1.plan pair.2)
      = (target.tables.common b.tables).flatMap fun pair => pair.1.plan pair.2 := by
    refine Keyed.flatMap_common_congr h.names fun {key t u u'} _ hu hu' => ?_
    exact Table.plan_eq_of_alike (ha.table hu) (hb.table hu')
      ((ha.table_name hu).trans (hb.table_name hu').symm) (h.table hu hu')
  have hrenamed := map_eq_of_forall₂ (γ := Statement)
    (f := fun pair => .renameTable pair.1.1 pair.2.1)
    (g := fun pair => .renameTable pair.1.1 pair.2.1) hpairs fun hpq => by rw [hpq.1.1, hpq.2]
  have hdropped := map_eq_of_forall₂ (γ := Statement) (f := fun gone => .dropTable gone.1)
    (g := fun gone => .dropTable gone.1) halone fun htu => by rw [htu.1]
  rw [hnew] at hcreated hrenamed hdropped
  simp only [plan, tablePairing, hdefaults, hshared, hrenamed, hdropped, hcreated, hnew]

end Schema

/-- Two valid schemas that are alike in what a plan sees lead to the same comparison
with a valid target: the same changes in the same order, with the same texts and
counters. -/
theorem diff_eq_of_alike {target current other : Schema} (htarget : target.validate = .ok ())
    (hcurrent : current.validate = .ok ()) (hother : other.validate = .ok ())
    (halike : current.Alike other) (database : String) :
    ∃ comparison, target.diff current database = .ok comparison ∧
      target.diff other database = .ok comparison := by
  have htarget' := (Schema.validate_eq_ok_iff target).1 htarget
  have hcurrent' := (Schema.validate_eq_ok_iff current).1 hcurrent
  have hother' := (Schema.validate_eq_ok_iff other).1 hother
  refine ⟨_, Schema.diff_of_wellFormed htarget' hcurrent' database, ?_⟩
  rw [Schema.diff_of_wellFormed htarget' hother',
    Schema.plan_eq_of_alike hcurrent' hother' halike database]

/-- A menu as it is to be: a renamed column, a new index, and a new table. -/
def menu : Schema where
  tables := .ofList [
    ("dish", { name := "dish", columns := .ofList [
      ("cost", { name := "cost", dataType := "decimal", precision := 6, numericScale := 2 }),
      ("label",
        { name := "label", dataType := "varchar", maxLength := 40, columnKey := .unique })] }),
    ("guest", { name := "guest", columns := .ofList [
      ("id", { name := "id", dataType := "int" })] })]

/-- The menu as one server has it. -/
def servedMenu : Schema where
  name := "menu"
  tables := .ofList [
    ("dish", { name := "dish", engine := "InnoDB", columns := .ofList [
      ("label", { name := "label", dataType := "varchar", maxLength := 20 }),
      ("price", { name := "price", dataType := "decimal", columnType := "decimal(5,1)" })] }),
    ("waiter", { name := "waiter", columns := .ofList [
      ("id", { name := "id", dataType := "int" })] })]

/-- The menu as another server has it, which says the rest in another way. -/
def restatedMenu : Schema where
  name := "menu_1"
  tables := .ofList [
    ("dish", { name := "dish", engine := "Aria", version := 10, columns := .ofList [
      ("label",
        { name := "label", dataType := "VARCHAR", maxLength := 20, default := "NULL",
          isNullable := true }),
      ("price",
        { name := "price", dataType := "Decimal", isUnsigned := true, precision := 9,
          numericScale := 4, extra := "INVISIBLE" })] }),
    ("waiter", { name := "waiter", columns := .ofList [
      ("id", { name := "id", dataType := "INT", extra := "auto_increment" })] })]

theorem diff_eq_of_alike_menu :
    (menu.validate = .ok () ∧ servedMenu.validate = .ok () ∧ restatedMenu.validate = .ok () ∧
        servedMenu.Alike restatedMenu) ∧
      ∃ comparison, menu.diff servedMenu "m" = .ok comparison ∧
        menu.diff restatedMenu "m" = .ok comparison :=
  ⟨by decide +kernel, diff_eq_of_alike (by decide +kernel) (by decide +kernel)
    (by decide +kernel) (by decide +kernel) "m"⟩

end SchemaPlan
