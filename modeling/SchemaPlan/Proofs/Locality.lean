import Mathlib.Algebra.GroupWithZero.Nat
import SchemaPlan.Proofs.Listing
set_option autoImplicit false

/-!
# A comparison is put together from its tables

Planning carries nothing over from one table to the next.  The comparison of two
schemas is that of their defaults, then for each name that both have, ascending, that
of the two tables alone, then that of the tables which only one side has
(`diff_eq_join`); its counters are the sums of theirs.  So what is planned for a
table on both sides does not depend on any other such table.
-/

namespace SchemaPlan

/-! ## Parts of a map -/

namespace Keyed

variable {α β : Type}

/-- The entries under the keys that pass a test. -/
def restrict (keep : String → Bool) (map : Keyed α) : Keyed α :=
  ⟨map.entries.filter fun e => keep e.1, map.ascending.filter _⟩

theorem get?_restrict (keep : String → Bool) (map : Keyed α) (key : String) :
    (map.restrict keep).get? key = if keep key then map.get? key else none := by
  refine Option.ext fun value => ?_
  rw [get?_eq_some_iff, restrict, List.mem_filter]
  split
  · next hkeep => rw [get?_eq_some_iff, and_iff_left hkeep]
  · next hkeep => simp [hkeep]

theorem get?_eq_some_of_restrict {keep : String → Bool} {map : Keyed α}
    {key : String} {value : α}
    (h : (map.restrict keep).get? key = some value) : map.get? key = some value := by
  rw [get?_restrict, Option.ite_none_right_eq_some] at h
  exact h.2

/-- What a map alone has, next to what the other alone has, is without a partner. -/
theorem without_restrict (a : Keyed α) (b : Keyed β) :
    (a.restrict fun key => !b.contains key).without (b.restrict fun key => !a.contains key)
      = a.without b := by
  refine List.filter_eq_self.2 fun e he => ?_
  have hfree : b.get? e.1 = none := (mem_without_iff.1 he).2
  rw [Bool.not_eq_true', ← isSome_get?, get?_restrict, hfree, ite_self, Option.isSome_none]

/-- What a map alone has shares nothing with what the other alone has. -/
theorem common_restrict (a : Keyed α) (b : Keyed β) :
    (a.restrict fun key => !b.contains key).common
      (b.restrict fun key => !a.contains key) = [] := by
  refine List.filterMap_eq_nil_iff.2 fun e he => ?_
  have hfree : b.get? e.1 = none := (mem_without_iff.1 he).2
  rw [get?_restrict, hfree, ite_self, Option.map_none]

end Keyed

/-! ## Parts of a schema -/

namespace Schema

/-- A schema of one table, without defaults. -/
def ofTable (table : Table) : Schema := ({} : Schema).addTable table

/-- A schema without a default character set and without the tables that another has. -/
def excluding (schema other : Schema) : Schema :=
  { schema with
    tables := schema.tables.restrict fun key => !other.tables.contains key
    defaultCharacterSet := "" }

variable {target current : Schema}

theorem WellFormed.ofTable {table : Table} (h : table.WellFormed) :
    (Schema.ofTable table).WellFormed := by
  have hget : ∀ {key : String} {t : Table}, (Schema.ofTable table).tables.get? key = some t →
      table.name = key ∧ table = t := by
    intro key t ht
    obtain heq | ⟨-, hempty⟩ := Keyed.get?_insert_eq_some_iff.1 ht
    · exact heq
    · exact nomatch hempty
  refine ⟨fun ht => ?_, fun ht => ?_⟩
  · obtain ⟨hname, rfl⟩ := hget ht
    exact hname
  · obtain ⟨-, rfl⟩ := hget ht
    exact h

theorem WellFormed.excluding {schema : Schema} (h : schema.WellFormed) (other : Schema) :
    (schema.excluding other).WellFormed :=
  ⟨fun ht => h.table_name (Keyed.get?_eq_some_of_restrict ht),
    fun ht => h.table (Keyed.get?_eq_some_of_restrict ht)⟩

/-- The plan between two schemas of one table each is the plan of the table. -/
theorem plan_ofTable {t u : Table} (hname : t.name = u.name) (database : String) :
    (ofTable t).plan (ofTable u) database = t.plan u := by
  have hentries : ∀ table : Table, (ofTable table).tables.entries = [(table.name, table)] :=
    fun _ => rfl
  have hcontains : (ofTable t).tables.contains u.name = true ∧
      (ofTable u).tables.contains t.name = true := by
    simp only [Keyed.contains, hentries, List.any_cons, hname, beq_self_eq_true, Bool.true_or,
      and_self]
  have hget : (ofTable u).tables.get? t.name = some u := by
    rw [hname]
    exact Keyed.get?_insert_self _ _ _
  have hwithout : (ofTable u).tables.without (ofTable t).tables = [] ∧
      (ofTable t).tables.without (ofTable u).tables = [] := by
    simp only [Keyed.without, hentries, List.filter_cons, hcontains, List.filter_nil,
      Bool.not_true, Bool.false_eq_true, if_false, and_self]
  have hcommon : (ofTable t).tables.common (ofTable u).tables = [(t, u)] := by
    simp only [Keyed.common, hentries, List.filterMap_cons, hget, Option.map_some,
      List.filterMap_nil]
  have hdefaults : (ofTable t).defaultsStatement (ofTable u) database = [] := rfl
  simp only [plan, tablePairing, hdefaults, hwithout, hcommon, pairUp, List.flatMap_cons,
    List.flatMap_nil, List.map_nil, List.append_nil, List.nil_append]

/-- The plan between what two schemas have alone renames, drops and creates tables. -/
theorem plan_excluding (target current : Schema) (database : String) :
    (target.excluding current).plan (current.excluding target) database
      = (target.tablePairing current).pairs.map (fun pair => .renameTable pair.1.1 pair.2.1)
        ++ (target.tablePairing current).gone.map (fun gone => .dropTable gone.1)
        ++ (target.tablePairing current).new.flatMap fun new => new.2.creation := by
  have hdefaults :
      (target.excluding current).defaultsStatement (current.excluding target) database
      = [] := rfl
  have hpairing : (target.excluding current).tablePairing (current.excluding target)
      = target.tablePairing current := by
    rw [tablePairing, tablePairing, excluding, excluding, Keyed.without_restrict,
      Keyed.without_restrict]
  have hcommon :
      (target.excluding current).tables.common (current.excluding target).tables = [] :=
    Keyed.common_restrict _ _
  rw [plan, hdefaults, hpairing, hcommon, List.flatMap_nil, List.nil_append, List.nil_append]

/-- A plan sets the defaults, then goes through the tables on both sides one by one, then
through all others. -/
theorem plan_eq_parts (target current : Schema) (database : String) :
    target.plan current database = (target.defaultsStatement current database
      :: ((target.tables.common current.tables).map (fun pair => pair.1.plan pair.2)
        ++ [(target.excluding current).plan (current.excluding target) database])).flatten := by
  rw [plan_excluding, List.flatten_cons, List.flatten_append, ← List.flatMap_def]
  simp only [plan, List.flatten_cons, List.flatten_nil, List.append_nil, List.append_assoc]

end Schema

/-! ## Parts of a comparison -/

namespace Comparison

/-- Comparisons one after the other: their changes in order, and the sums of their
counters. -/
def join (database : String) (parts : List Comparison) : Comparison where
  database := database
  additions := (parts.map (·.additions)).sum
  alterations := (parts.map (·.alterations)).sum
  deletions := (parts.map (·.deletions)).sum
  changes := parts.flatMap (·.changes)

theorem databaseKey_foldl_push (start : Comparison) (statements : List Statement) :
    (statements.foldl (fun c s => c.push s.effect s.change) start).databaseKey
      = start.databaseKey := by
  induction statements generalizing start with
  | nil => rfl
  | cons s rest ih =>
    rw [List.foldl_cons, ih]
    cases s.effect <;> rfl

/-- The comparison of a plan, field by field. -/
theorem ofStatements_eq (database : String) (statements : List Statement) :
    ofStatements database statements =
      { database := database
        additions := statements.countP (·.effect == .addition)
        alterations := statements.countP (·.effect == .alteration)
        deletions := statements.countP (·.effect == .deletion)
        changes := statements.map Statement.change } := by
  obtain ⟨hadditions, halterations, hdeletions⟩ := counters_ofStatements database statements
  rw [← hadditions, ← halterations, ← hdeletions, ← changes_ofStatements database statements]
  have hdatabase := database_ofStatements database statements
  have hkey : (ofStatements database statements).databaseKey = "" :=
    databaseKey_foldl_push { database := database } statements
  generalize ofStatements database statements = comparison at hdatabase hkey ⊢
  obtain ⟨_, _, _, _, _, _⟩ := comparison
  obtain rfl := hdatabase
  obtain rfl := hkey
  rfl

/-- The comparison of blocks one after the other joins the comparisons of the blocks. -/
theorem ofStatements_flatten (database : String) (blocks : List (List Statement)) :
    ofStatements database blocks.flatten
      = join database (blocks.map (ofStatements database)) := by
  simp only [ofStatements_eq, join, List.countP_flatten, List.map_flatten, List.map_map,
    List.flatMap_def, Function.comp_def]

end Comparison

/-! ## The comparison of two schemas -/

/-- The parts of the comparison of two schemas: that of the defaults, one for each name
that both have, and that of the tables which only one side has. -/
structure Schema.ComparesParts (target current : Schema) (database : String)
    (names : List String) (defaults : Comparison) (tables : List Comparison)
    (rest : Comparison) : Prop where
  /-- The defaults of the database are set by one statement, or left as they are. -/
  defaults : defaults = .ofStatements database [] ∨ defaults = .ofStatements database
    [.alterDatabase database target.defaultCharacterSet target.defaultCollation]
  ascending : names.Pairwise (· < ·)
  mem_names : ∀ {name : String},
    name ∈ names ↔ name ∈ target.tables.keys ∧ name ∈ current.tables.keys
  /-- A table on both sides is compared as if there were no other. -/
  tables : List.Forall₂ (fun name part => ∃ t u, target.tables.get? name = some t ∧
    current.tables.get? name = some u ∧
    (Schema.ofTable t).diff (.ofTable u) database = .ok part) names tables
  rest : (target.excluding current).diff (current.excluding target) database = .ok rest

theorem Schema.comparesParts {target current : Schema} (htarget : target.WellFormed)
    (hcurrent : current.WellFormed) (database : String) :
    target.ComparesParts current database
      ((target.tables.common current.tables).map (·.1.name))
      (.ofStatements database (target.defaultsStatement current database))
      ((target.tables.common current.tables).map fun pair =>
        .ofStatements database (pair.1.plan pair.2))
      (.ofStatements database
        ((target.excluding current).plan (current.excluding target) database)) where
  defaults := by
    rw [defaultsStatement]
    split
    · exact .inr rfl
    · exact .inl rfl
  ascending := by
    rw [Keyed.map_common Table.name htarget.table_name]
    exact target.tables.keys_ascending.filter _
  mem_names := by
    intro name
    rw [Keyed.map_common Table.name htarget.table_name, List.mem_filter,
      Keyed.contains_eq_true_iff]
  tables := by
    refine List.forall₂_map_left_iff.2 (List.forall₂_map_right_iff.2 (List.forall₂_same.2 ?_))
    rintro ⟨t, u⟩ hpair
    obtain ⟨key, ht, hu⟩ := Keyed.mem_common.1 hpair
    obtain rfl := htarget.table_name ht
    refine ⟨t, u, ht, hu, ?_⟩
    rw [diff_of_wellFormed (.ofTable (htarget.table ht)) (.ofTable (hcurrent.table hu)),
      plan_ofTable (hcurrent.table_name hu).symm]
  rest := diff_of_wellFormed (htarget.excluding current) (hcurrent.excluding target) database

/-- Between two valid schemas there is a comparison, and it joins its parts: the
defaults, the tables on both sides in ascending order, each compared alone, and all
other tables. -/
theorem diff_eq_join {target current : Schema} (htarget : target.validate = .ok ())
    (hcurrent : current.validate = .ok ()) (database : String) :
    ∃ (names : List String) (defaults : Comparison) (tables : List Comparison)
        (rest : Comparison),
      target.diff current database = .ok (.join database (defaults :: (tables ++ [rest]))) ∧
        target.ComparesParts current database names defaults tables rest := by
  have htarget' := (Schema.validate_eq_ok_iff target).1 htarget
  have hcurrent' := (Schema.validate_eq_ok_iff current).1 hcurrent
  refine ⟨_, _, _, _, ?_, Schema.comparesParts htarget' hcurrent' database⟩
  rw [Schema.diff_of_wellFormed htarget' hcurrent', Schema.plan_eq_parts,
    Comparison.ofStatements_flatten, List.map_cons, List.map_append, List.map_map]
  rfl

/-- An archive: two tables that stay, one that goes, and one with an old name. -/
def archive : Schema where
  tables := .ofList [
    ("box", { name := "box", columns := .ofList [
      ("id", { name := "id", dataType := "int", columnKey := .primary }),
      ("mark", { name := "mark", dataType := "char", maxLength := 4 })] }),
    ("clerk", { name := "clerk", columns := .ofList [
      ("since", { name := "since", dataType := "date" })] }),
    ("shelf", { name := "shelf", columns := .ofList [
      ("row", { name := "row", dataType := "int" })] }),
    ("sheet", { name := "sheet", columns := .ofList [
      ("text", { name := "text", dataType := "text" })] })]
  defaultCharacterSet := "latin1"

/-- The archive with other defaults, changes in each table that stays, another table
and the new name. -/
def nextArchive : Schema where
  tables := .ofList [
    ("box", { name := "box", columns := .ofList [
      ("id", { name := "id", dataType := "int", columnKey := .primary }),
      ("label", { name := "label", dataType := "char", maxLength := 8 })] }),
    ("page", { name := "page", columns := .ofList [
      ("text", { name := "text", dataType := "text" })] }),
    ("room", { name := "room", columns := .ofList [
      ("floor", { name := "floor", dataType := "int", columnKey := .multiple })] }),
    ("shelf", { name := "shelf", characterSet := "utf8mb4", columns := .ofList [
      ("row", { name := "row", dataType := "bigint", columnKey := .unique })] })]
  defaultCharacterSet := "utf8mb4"

theorem diff_eq_join_archive :
    (nextArchive.validate = .ok () ∧ archive.validate = .ok ()) ∧
      ∃ (names : List String) (defaults : Comparison) (tables : List Comparison)
          (rest : Comparison),
        nextArchive.diff archive "a" = .ok (.join "a" (defaults :: (tables ++ [rest]))) ∧
          nextArchive.ComparesParts archive "a" names defaults tables rest :=
  ⟨by decide +kernel, diff_eq_join (by decide +kernel) (by decide +kernel) "a"⟩

end SchemaPlan
