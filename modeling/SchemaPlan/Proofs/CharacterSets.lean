import SchemaPlan.Proofs.Agreement
import SchemaPlan.Proofs.Listing
set_option autoImplicit false

/-!
# Character sets and collations that are set

Which statements of a plan set a character set and a collation, and to what
(`diff_character_sets`).  The defaults of the database are set only where the target
names a character set; a collation is not asked for, and for tables neither is.  So a
statement lacks an operand exactly where the target leaves open what the current side
has otherwise, and the text that is sent then is no statement of the database.
-/

namespace SchemaPlan

/-! ## Operands -/

/-- The character set and the collation that a statement sets for a database or a
table. -/
def Statement.operands? : Statement → Option (String × String)
  | .alterDatabase _ characterSet collation => some (characterSet, collation)
  | .convertTable _ characterSet collation => some (characterSet, collation)
  | _ => none

/-- A statement names what it sets. -/
def Statement.IsComplete (s : Statement) : Prop :=
  ∀ characterSet collation, s.operands? = some (characterSet, collation) →
    characterSet ≠ "" ∧ collation ≠ ""

namespace Table

/-- A table has a character set or a collation that the current one does not have. -/
def Recodes (target current : Table) : Prop :=
  target.characterSet ≠ current.characterSet ∨ target.collation ≠ current.collation

theorem mem_conversion_iff {target current : Table} {s : Statement} :
    s ∈ target.conversion current ↔ target.Recodes current ∧
      s = .convertTable target.name target.characterSet target.collation := by
  rw [conversion_eq, Recodes, ← not_and_or]
  split
  · next hsame => exact ⟨fun h => absurd h List.not_mem_nil, fun h => absurd hsame h.1⟩
  · next hdiffers => rw [List.mem_singleton, and_iff_right hdiffers]

/-- What the plan of a table converts. -/
theorem convertTable_mem_plan_iff {target current : Table} (hname : current.name = target.name)
    {table characterSet collation : String} :
    .convertTable table characterSet collation ∈ target.plan current ↔
      target.Recodes current ∧ table = target.name ∧ characterSet = target.characterSet ∧
        collation = target.collation := by
  rw [plan_eq, List.mem_append, mem_conversion_iff, Statement.convertTable.injEq]
  constructor
  · rintro (h | h)
    · exact h
    · exact nomatch altersColumns_of_mem_columnPlan hname h
  · exact .inl

end Table

namespace Schema

variable {target current : Schema}

/-- A schema has a default character set or collation that the current one does not
have. -/
def Recodes (target current : Schema) : Prop :=
  target.defaultCharacterSet ≠ current.defaultCharacterSet ∨
    target.defaultCollation ≠ current.defaultCollation

theorem mem_defaultsStatement_iff {database : String} {s : Statement} :
    s ∈ target.defaultsStatement current database ↔
      (target.defaultCharacterSet ≠ "" ∧ target.Recodes current) ∧
        s = .alterDatabase database target.defaultCharacterSet target.defaultCollation := by
  rw [defaultsStatement, Recodes]
  split
  · next hset =>
    simp only [Bool.and_eq_true, Bool.or_eq_true, bne_iff_ne] at hset
    rw [List.mem_singleton, and_iff_right hset]
  · next hunset =>
    simp only [Bool.and_eq_true, Bool.or_eq_true, bne_iff_ne] at hunset
    exact ⟨fun h => absurd h List.not_mem_nil, fun h => absurd h.1 hunset⟩

/-- What a plan sets as defaults of the database. -/
theorem alterDatabase_mem_plan_iff (htarget : target.WellFormed) (hcurrent : current.WellFormed)
    {database name characterSet collation : String} :
    .alterDatabase name characterSet collation ∈ target.plan current database ↔
      (target.defaultCharacterSet ≠ "" ∧ target.Recodes current) ∧ name = database ∧
        characterSet = target.defaultCharacterSet ∧ collation = target.defaultCollation := by
  rw [plan_eq, List.mem_append, mem_defaultsStatement_iff, Statement.alterDatabase.injEq]
  constructor
  · rintro (h | h)
    · exact h
    · exact absurd rfl (ne_alterDatabase_of_mem_tablePlan htarget hcurrent h _ _ _)
  · exact .inl

/-- What a plan converts. -/
theorem convertTable_mem_plan_iff (htarget : target.WellFormed) (hcurrent : current.WellFormed)
    {database table characterSet collation : String} :
    .convertTable table characterSet collation ∈ target.plan current database ↔
      ∃ t u, target.tables.get? table = some t ∧ current.tables.get? table = some u ∧
        t.Recodes u ∧ characterSet = t.characterSet ∧ collation = t.collation := by
  have hname {key : String} {t u : Table} (ht : target.tables.get? key = some t)
      (hu : current.tables.get? key = some u) : u.name = t.name :=
    (hcurrent.table_name hu).trans (htarget.table_name ht).symm
  constructor
  · intro h
    obtain ⟨t, u, ht, hu, hs⟩ := exists_of_alters htarget hcurrent h rfl fun _ _ => nofun
    obtain ⟨hrecodes, -, hset⟩ := (Table.convertTable_mem_plan_iff (hname ht hu)).1 hs
    exact ⟨t, u, ht, hu, hrecodes, hset⟩
  · rintro ⟨t, u, ht, hu, hrecodes, hset⟩
    have hs := (Table.convertTable_mem_plan_iff (hname ht hu)).2
      ⟨hrecodes, (htarget.table_name ht).symm, hset⟩
    exact mem_plan_of_mem_common (Keyed.mem_common.2 ⟨table, ht, hu⟩) hs

/-- Wherever a schema has other character sets or collations than the current one, it
names them: the collation with a default character set, and both of a table. -/
structure NamesWhatDiffers (target current : Schema) : Prop where
  defaults : target.defaultCharacterSet ≠ "" → target.Recodes current →
    target.defaultCollation ≠ ""
  table : ∀ {key : String} {t u : Table}, target.tables.get? key = some t →
    current.tables.get? key = some u → t.Recodes u → t.characterSet ≠ "" ∧ t.collation ≠ ""

/-- A plan lacks no operand exactly if the target names what differs. -/
theorem plan_isComplete_iff (htarget : target.WellFormed) (hcurrent : current.WellFormed)
    {database : String} : (∀ s ∈ target.plan current database, s.IsComplete) ↔
      target.NamesWhatDiffers current := by
  constructor
  · intro h
    refine ⟨fun hset hrecodes => ?_, fun {key t u} ht hu hrecodes => ?_⟩
    · have hmem : .alterDatabase database target.defaultCharacterSet target.defaultCollation
          ∈ target.plan current database :=
        (alterDatabase_mem_plan_iff htarget hcurrent).2 ⟨⟨hset, hrecodes⟩, rfl, rfl, rfl⟩
      exact (h _ hmem _ _ rfl).2
    · have hmem : .convertTable key t.characterSet t.collation ∈ target.plan current database :=
        (convertTable_mem_plan_iff htarget hcurrent).2 ⟨t, u, ht, hu, hrecodes, rfl, rfl⟩
      exact h _ hmem _ _ rfl
  · intro h s hs characterSet collation hoperands
    cases s with
    | alterDatabase name =>
      cases hoperands
      obtain ⟨⟨hset, hrecodes⟩, -, rfl, rfl⟩ :=
        (alterDatabase_mem_plan_iff htarget hcurrent).1 hs
      exact ⟨hset, h.defaults hset hrecodes⟩
    | convertTable table =>
      cases hoperands
      obtain ⟨t, u, ht, hu, hrecodes, rfl, rfl⟩ :=
        (convertTable_mem_plan_iff htarget hcurrent).1 hs
      exact h.table ht hu hrecodes
    | _ => exact nomatch hoperands

end Schema

/-- Between two valid schemas there is a comparison.  It sets the defaults of the
database if the target names a character set and not both defaults agree; it converts
each table on both sides of which not both agree; and it sets them to what the target
has, named or not.  So each statement names both exactly if the target names what
differs. -/
theorem diff_character_sets {target current : Schema} (htarget : target.validate = .ok ())
    (hcurrent : current.validate = .ok ()) (database : String) :
    target.diff current database = .ok (.ofStatements database (target.plan current database)) ∧
    (∀ name characterSet collation,
      .alterDatabase name characterSet collation ∈ target.plan current database ↔
        (target.defaultCharacterSet ≠ "" ∧ target.Recodes current) ∧ name = database ∧
          characterSet = target.defaultCharacterSet ∧ collation = target.defaultCollation) ∧
    (∀ table characterSet collation,
      .convertTable table characterSet collation ∈ target.plan current database ↔
        ∃ t u, target.tables.get? table = some t ∧ current.tables.get? table = some u ∧
          t.Recodes u ∧ characterSet = t.characterSet ∧ collation = t.collation) ∧
    ((∀ s ∈ target.plan current database, s.IsComplete) ↔ target.NamesWhatDiffers current) := by
  have htarget' := (Schema.validate_eq_ok_iff target).1 htarget
  have hcurrent' := (Schema.validate_eq_ok_iff current).1 hcurrent
  exact ⟨Schema.diff_of_wellFormed htarget' hcurrent' database,
    fun _ _ _ => Schema.alterDatabase_mem_plan_iff htarget' hcurrent',
    fun _ _ _ => Schema.convertTable_mem_plan_iff htarget' hcurrent',
    Schema.plan_isComplete_iff htarget' hcurrent'⟩

/-- A theatre with a character set and a collation for everything. -/
def theatre : Schema where
  defaultCharacterSet := "latin1"
  defaultCollation := "latin1_bin"
  tables := .ofList [
    ("play", { name := "play", characterSet := "latin1", collation := "latin1_bin" }),
    ("seat", { name := "seat", characterSet := "latin1", collation := "latin1_bin" })]

/-- The theatre with another character set, a collation left open, and a table that
leaves open both. -/
def nextTheatre : Schema where
  defaultCharacterSet := "utf8mb4"
  tables := .ofList [
    ("play", { name := "play" }),
    ("seat", { name := "seat", characterSet := "utf8mb4", collation := "utf8mb4_bin" })]

theorem diff_character_sets_theatre :
    (nextTheatre.validate = .ok () ∧ theatre.validate = .ok ()) ∧
    nextTheatre.diff theatre "App"
      = .ok (.ofStatements "App" (nextTheatre.plan theatre "App")) ∧
    (∀ name characterSet collation,
      .alterDatabase name characterSet collation ∈ nextTheatre.plan theatre "App" ↔
        (nextTheatre.defaultCharacterSet ≠ "" ∧ nextTheatre.Recodes theatre) ∧ name = "App" ∧
          characterSet = nextTheatre.defaultCharacterSet ∧
          collation = nextTheatre.defaultCollation) ∧
    (∀ table characterSet collation,
      .convertTable table characterSet collation ∈ nextTheatre.plan theatre "App" ↔
        ∃ t u, nextTheatre.tables.get? table = some t ∧ theatre.tables.get? table = some u ∧
          t.Recodes u ∧ characterSet = t.characterSet ∧ collation = t.collation) ∧
    ((∀ s ∈ nextTheatre.plan theatre "App", s.IsComplete) ↔
      nextTheatre.NamesWhatDiffers theatre) :=
  ⟨by decide +kernel, diff_character_sets (by decide +kernel) (by decide +kernel) "App"⟩

/-- What the theatre leaves open is missing in the texts that are sent. -/
theorem theatre_leaves_operands_open :
    (nextTheatre.diff theatre "App" = .ok {
      database := "App"
      alterations := 3
      changes := [
        .ofKind .changeCharacterSet "ALTER DATABASE `App` CHARACTER SET utf8mb4 COLLATE ;",
        .ofKind .changeCharacterSet "ALTER TABLE `play` CONVERT TO CHARACTER SET  COLLATE ;",
        .ofKind .changeCharacterSet
          "ALTER TABLE `seat` CONVERT TO CHARACTER SET utf8mb4 COLLATE utf8mb4_bin;"] }) ∧
    ¬ ∀ s ∈ nextTheatre.plan theatre "App", s.IsComplete := by
  refine ⟨by decide +kernel, fun h => ?_⟩
  have hmem : .convertTable "play" "" "" ∈ nextTheatre.plan theatre "App" := by
    decide +kernel
  exact (h _ hmem _ _ rfl).1 rfl

end SchemaPlan
