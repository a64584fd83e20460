import SchemaPlan.Proofs.Listing
set_option autoImplicit false

/-!
# How changes are classified

Each change of a plan has a text that begins as its kind requires, on a table of
one of the two sides or on the database, and ends its statement; it is destructive
exactly if its kind takes something away; and the counters of a comparison count
its changes by kind (`diff_classifies`).
-/

namespace SchemaPlan

/-! ## How texts begin -/

/-- A text begins with an opening. -/
def Opens (opening text : String) : Prop := ∃ rest, text = opening ++ rest

theorem opens_append (opening rest : String) : Opens opening (opening ++ rest) := ⟨rest, rfl⟩

theorem Opens.append {opening text : String} (h : Opens opening text) (more : String) :
    Opens opening (text ++ more) := by
  obtain ⟨rest, rfl⟩ := h
  exact ⟨rest ++ more, String.append_assoc⟩

theorem Opens.after {opening text : String} (h : Opens opening text) (before : String) :
    Opens (before ++ opening) (before ++ text) := by
  obtain ⟨rest, rfl⟩ := h
  exact ⟨rest, String.append_assoc.symm⟩

/-! ## Kinds -/

/-- The kinds of change that count as an effect. -/
def Effect.kinds : Effect → List ChangeKind
  | .addition => [.createTable, .addColumn, .addIndex]
  | .alteration => [.renameTable, .changeColumn, .changeCharacterSet]
  | .deletion => [.dropTable, .dropColumn, .dropIndex]

namespace ChangeKind

/-- What is destructive are the deletions. -/
theorem isDestructive_iff (kind : ChangeKind) :
    kind.isDestructive = true ↔ kind ∈ Effect.deletion.kinds := by
  cases kind <;> simp [isDestructive, Effect.kinds]

/-- How statements on some tables begin that alter them in one of some ways. -/
def alterations (tables words : List String) : List String :=
  tables.flatMap fun table => words.map (Statement.alterTable table ++ ·)

/-- How the text of a change of a kind may begin, on some tables of a database. -/
def openings (database : String) (tables : List String) : ChangeKind → List String
  | createTable => tables.map fun table => "CREATE TABLE " ++ quoteIdentifier table
  | dropTable => tables.map fun table => "DROP TABLE " ++ quoteIdentifier table
  | renameTable => tables.map fun table => "RENAME TABLE " ++ quoteIdentifier table
  | addColumn => alterations tables ["ADD COLUMN "]
  | dropColumn => alterations tables ["DROP COLUMN "]
  | changeColumn => alterations tables ["CHANGE "]
  | addIndex => alterations tables ["ADD INDEX ", "ADD UNIQUE INDEX ", "ADD PRIMARY KEY "]
  | dropIndex => alterations tables ["DROP INDEX ", "DROP PRIMARY KEY"]
  | changeCharacterSet =>
    ("ALTER DATABASE " ++ quoteIdentifier database) :: alterations tables ["CONVERT TO "]

theorem mem_alterations {tables words : List String} {table word : String}
    (htable : table ∈ tables) (hword : word ∈ words) :
    Statement.alterTable table ++ word ∈ alterations tables words :=
  List.mem_flatMap.2 ⟨table, htable, List.mem_map.2 ⟨word, hword, rfl⟩⟩

end ChangeKind

/-! ## Statements -/

namespace Statement

/-- A statement is about a database, or about one of its tables. -/
def IsAbout (database : String) (tables : List String) : Statement → Prop
  | alterDatabase named .. => named = database
  | createTable table => table.name ∈ tables
  | dropTable table | renameTable table _ | convertTable table ..
  | addColumn table _ | dropColumn table _ | changeColumn table ..
  | addIndex _ table _ | dropIndex _ table _
  | addPrimaryKey table _ | dropPrimaryKey table => table ∈ tables

theorem isAbout_of_alters {s : Statement} {table : String} (h : s.alters? = some table)
    (database : String) {tables : List String} (htable : table ∈ tables) :
    s.IsAbout database tables := by
  cases s <;>
    first
    | exact Option.some.inj h ▸ htable
    | exact nomatch h

/-- The kind of a statement is one of those that count as its effect. -/
theorem kind_mem_kinds_iff (s : Statement) (effect : Effect) :
    s.kind ∈ effect.kinds ↔ s.effect = effect := by
  cases s <;> cases effect <;> simp [kind, Statement.effect, Effect.kinds]

/-- The text of a statement begins as its kind requires. -/
theorem opens_sql {s : Statement} {database : String} {tables : List String}
    (h : s.IsAbout database tables) :
    ∃ opening ∈ s.kind.openings database tables, Opens opening s.sql := by
  cases s with
  | alterDatabase named characterSet collation =>
    obtain rfl := h
    exact ⟨_, List.mem_cons_self, ((((opens_append _ _).append _).append _).append _).append _⟩
  | convertTable table characterSet collation =>
    have hword : Opens "CONVERT TO " "CONVERT TO CHARACTER SET " := ⟨"CHARACTER SET ", rfl⟩
    exact ⟨_, List.mem_cons_of_mem _ (ChangeKind.mem_alterations h List.mem_cons_self),
      ((((hword.after _).append _).append _).append _).append _⟩
  | createTable table =>
    refine ⟨_, List.mem_map_of_mem h, ?_⟩
    exact ((((((opens_append _ _).append _).append _).append _).append _).append _).append _
  | dropTable table => exact ⟨_, List.mem_map_of_mem h, opens_append _ _⟩
  | renameTable old new =>
    exact ⟨_, List.mem_map_of_mem h, ((opens_append _ _).append _).append _⟩
  | addColumn table column =>
    exact ⟨_, ChangeKind.mem_alterations h List.mem_cons_self, (opens_append _ _).append _⟩
  | dropColumn table column =>
    exact ⟨_, ChangeKind.mem_alterations h List.mem_cons_self, (opens_append _ _).append _⟩
  | changeColumn table old column =>
    exact ⟨_, ChangeKind.mem_alterations h List.mem_cons_self,
      (((opens_append _ _).append _).append _).append _⟩
  | addIndex kind table column =>
    refine ⟨_, ChangeKind.mem_alterations h ?_,
      (((opens_append _ _).append _).append _).append _⟩
    cases kind with
    | plain => exact List.mem_cons_self
    | unique => exact List.mem_cons_of_mem _ List.mem_cons_self
  | dropIndex kind table column =>
    exact ⟨_, ChangeKind.mem_alterations h List.mem_cons_self, (opens_append _ _).append _⟩
  | addPrimaryKey table column =>
    have hword : Opens "ADD PRIMARY KEY " "ADD PRIMARY KEY (" := ⟨"(", rfl⟩
    refine ⟨_, ChangeKind.mem_alterations h ?_, ((hword.after _).append _).append _⟩
    exact List.mem_cons_of_mem _ (List.mem_cons_of_mem _ List.mem_cons_self)
  | dropPrimaryKey table =>
    have hword : Opens "DROP PRIMARY KEY" "DROP PRIMARY KEY;" := ⟨";", rfl⟩
    refine ⟨_, ChangeKind.mem_alterations h ?_, hword.after _⟩
    exact List.mem_cons_of_mem _ List.mem_cons_self

/-- The text of a statement ends with a semicolon. -/
theorem sql_terminated (s : Statement) : ∃ body, s.sql = body ++ ";" := by
  have hsplit : ∀ text word more : String, more = word ++ ";" →
      ∃ body, text ++ more = body ++ ";" := by
    rintro text word _ rfl
    exact ⟨text ++ word, String.append_assoc.symm⟩
  cases s with
  | addIndex kind table column => exact hsplit _ ")" _ rfl
  | addPrimaryKey table column => exact hsplit _ ")" _ rfl
  | dropPrimaryKey table => exact hsplit _ "DROP PRIMARY KEY" _ rfl
  | _ => exact ⟨_, rfl⟩

end Statement

/-! ## Plans -/

namespace Schema

variable {target current : Schema}

/-- Each statement of a plan is about the database or a table of one of the two
sides. -/
theorem isAbout_of_mem_plan (htarget : target.WellFormed) (hcurrent : current.WellFormed)
    {database : String} {s : Statement} (h : s ∈ target.plan current database) :
    s.IsAbout database (target.tables.keys ++ current.tables.keys) := by
  have hleft {key : String} {t : Table} (ht : target.tables.get? key = some t) :
      t.name ∈ target.tables.keys ++ current.tables.keys := by
    rw [htarget.table_name ht]
    exact List.mem_append_left _ (Keyed.mem_keys_of_get? ht)
  have hright {key : String} {u : Table} (hu : current.tables.get? key = some u) :
      key ∈ target.tables.keys ++ current.tables.keys :=
    List.mem_append_right _ (Keyed.mem_keys_of_get? hu)
  rcases mem_plan_iff.1 h with h | ⟨pair, hpair, h⟩ | ⟨pair, hpair, rfl⟩ | ⟨gone, hgone, rfl⟩ |
    ⟨new, hnew, h⟩
  · rw [eq_of_mem_defaultsStatement h]
    rfl
  · obtain ⟨key, ht, -⟩ := Keyed.mem_common.1 hpair
    exact Statement.isAbout_of_alters (alters_of_mem_common htarget hcurrent hpair h) _
      (hleft ht)
  · exact hright (lookups_of_mem_pairs hpair).1.1
  · exact hright (lookups_of_mem_gone hgone).1
  · have hname := hleft (lookups_of_mem_new hnew).1
    rw [Table.creation_eq] at h
    rcases List.mem_cons.1 h with rfl | h
    · exact hname
    · exact Statement.isAbout_of_alters (new.2.alters_indexes s h) _ hname

end Schema

/-! ## Comparisons -/

/-- A change is destructive exactly if its kind takes something away, and its text
is one statement of its kind, on one of some tables or on the database. -/
structure Change.IsClassified (database : String) (tables : List String) (change : Change) :
    Prop where
  destructive : change.isDestructive = true ↔ change.kind ∈ Effect.deletion.kinds
  opens : ∃ opening ∈ change.kind.openings database tables, Opens opening change.sql
  terminated : ∃ body, change.sql = body ++ ";"

theorem Statement.isClassified_change {s : Statement} {database : String} {tables : List String}
    (h : s.IsAbout database tables) : s.change.IsClassified database tables where
  destructive := s.kind.isDestructive_iff
  opens := opens_sql h
  terminated := s.sql_terminated

/-- The counters of a comparison count its changes by kind. -/
structure Comparison.CountsKinds (comparison : Comparison) : Prop where
  additions : comparison.additions
    = comparison.changes.countP (·.kind ∈ Effect.addition.kinds)
  alterations : comparison.alterations
    = comparison.changes.countP (·.kind ∈ Effect.alteration.kinds)
  deletions : comparison.deletions
    = comparison.changes.countP (·.kind ∈ Effect.deletion.kinds)
  total : comparison.additions + comparison.alterations + comparison.deletions
    = comparison.changes.length
  destructive : comparison.deletions = comparison.destructiveCount

namespace Comparison

/-- Statements with an effect are the changes with one of its kinds. -/
theorem countP_change (statements : List Statement) (effect : Effect) :
    (statements.map Statement.change).countP (·.kind ∈ effect.kinds)
      = statements.countP (·.effect == effect) := by
  rw [List.countP_map]
  refine List.countP_congr fun s _ => ?_
  rw [beq_iff_eq, Function.comp_apply, decide_eq_true_iff]
  exact s.kind_mem_kinds_iff effect

theorem countP_effects (statements : List Statement) :
    statements.countP (·.effect == .addition) + statements.countP (·.effect == .alteration)
      + statements.countP (·.effect == .deletion) = statements.length := by
  induction statements with
  | nil => rfl
  | cons s rest ih =>
    simp only [List.countP_cons, List.length_cons]
    cases s.effect <;> simp <;> omega

/-- The destructive changes of a plan are its deletions. -/
theorem countP_isDestructive (statements : List Statement) :
    (statements.map Statement.change).countP (·.isDestructive)
      = statements.countP (·.effect == .deletion) := by
  rw [List.countP_map]
  refine List.countP_congr fun s _ => ?_
  rw [beq_iff_eq]
  exact s.kind.isDestructive_iff.trans (s.kind_mem_kinds_iff .deletion)

theorem countsKinds_ofStatements (database : String) (statements : List Statement) :
    (ofStatements database statements).CountsKinds := by
  obtain ⟨hadditions, halterations, hdeletions⟩ := counters_ofStatements database statements
  constructor
  · rw [hadditions, changes_ofStatements, countP_change]
  · rw [halterations, changes_ofStatements, countP_change]
  · rw [hdeletions, changes_ofStatements, countP_change]
  · rw [hadditions, halterations, hdeletions, changes_ofStatements, List.length_map]
    exact countP_effects statements
  · rw [hdeletions, destructiveCount, changes_ofStatements, countP_isDestructive]

end Comparison

/-- A plan between two valid schemas classifies and counts its changes by their
kinds. -/
theorem diff_classifies {target current : Schema} (htarget : target.validate = .ok ())
    (hcurrent : current.validate = .ok ()) (database : String) :
    ∃ comparison, target.diff current database = .ok comparison ∧ comparison.CountsKinds ∧
      ∀ change ∈ comparison.changes,
        change.IsClassified database (target.tables.keys ++ current.tables.keys) := by
  rw [Schema.validate_eq_ok_iff] at htarget hcurrent
  refine ⟨_, Schema.diff_of_wellFormed htarget hcurrent database,
    Comparison.countsKinds_ofStatements _ _, fun change hchange => ?_⟩
  rw [Comparison.changes_ofStatements] at hchange
  obtain ⟨s, hs, rfl⟩ := List.mem_map.1 hchange
  exact Statement.isClassified_change (Schema.isAbout_of_mem_plan htarget hcurrent hs)

/-- A depot: its items and the places where they are. -/
def depot : Schema where
  defaultCharacterSet := "latin1"
  tables := .ofList [
    ("item", { name := "item", columns := .ofList [
      ("id", { name := "id", dataType := "int", columnKey := .primary }),
      ("label", { name := "label", dataType := "varchar", columnKey := .unique }),
      ("weight", { name := "weight", dataType := "double" })] }),
    ("place", { name := "place", columns := .ofList [
      ("row", { name := "row", dataType := "int" })] })]

/-- The depot with other defaults and a table of lists instead of places. -/
def nextDepot : Schema where
  defaultCharacterSet := "utf8mb4"
  tables := .ofList [
    ("item", { name := "item", columns := .ofList [
      ("count", { name := "count", dataType := "int" }),
      ("id", { name := "id", dataType := "int", columnKey := .primary }),
      ("label", { name := "label", dataType := "varchar", columnKey := .multiple })] }),
    ("list", { name := "list", columns := .ofList [
      ("day", { name := "day", dataType := "date" })] })]

theorem diff_classifies_depot :
    (nextDepot.validate = .ok () ∧ depot.validate = .ok ()) ∧
      ∃ comparison, nextDepot.diff depot "depot" = .ok comparison ∧ comparison.CountsKinds ∧
        ∀ change ∈ comparison.changes,
          change.IsClassified "depot" (nextDepot.tables.keys ++ depot.tables.keys) :=
  ⟨by decide +kernel, diff_classifies (by decide +kernel) (by decide +kernel) "depot"⟩

end SchemaPlan
