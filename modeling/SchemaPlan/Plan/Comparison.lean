import SchemaPlan.Ddl.Statement

set_option autoImplicit false

/-!
# Comparisons

A comparison lists the changes that bring a database in line with its schema, in
order, and counts them by their effect.
-/

namespace SchemaPlan

/-- A change as it is listed, printed and applied. -/
structure Change where
  kind : ChangeKind
  sql : String
  isDestructive : Bool
  deriving DecidableEq, Repr, Inhabited

/-- A change of a kind; whether it is destructive follows from the kind. -/
def Change.ofKind (kind : ChangeKind) (sql : String) : Change :=
  ⟨kind, sql, kind.isDestructive⟩

/-- A statement as a change. -/
def Statement.change (s : Statement) : Change := .ofKind s.kind s.sql

/-- What a change counts as. -/
inductive Effect
  | addition | alteration | deletion
  deriving DecidableEq, Repr, Inhabited

/-- What a statement counts as. -/
def Statement.effect : Statement → Effect
  | .createTable .. | .addColumn .. | .addIndex .. | .addPrimaryKey .. => .addition
  | .alterDatabase .. | .convertTable .. | .renameTable .. | .changeColumn .. => .alteration
  | .dropTable .. | .dropColumn .. | .dropIndex .. | .dropPrimaryKey .. => .deletion

/-- The changes for one database. -/
structure Comparison where
  /-- The database as reports name it. -/
  database : String := ""
  /-- The key of the connection to it. -/
  databaseKey : String := ""
  additions : Nat := 0
  alterations : Nat := 0
  deletions : Nat := 0
  changes : List Change := []
  deriving DecidableEq, Repr, Inhabited

namespace Comparison

/-- Append a change and count it. -/
def push (comparison : Comparison) (effect : Effect) (change : Change) : Comparison :=
  let listed := { comparison with changes := comparison.changes ++ [change] }
  match effect with
  | .addition => { listed with additions := comparison.additions + 1 }
  | .alteration => { listed with alterations := comparison.alterations + 1 }
  | .deletion => { listed with deletions := comparison.deletions + 1 }

/-- The comparison that lists the statements of a plan. -/
def ofStatements (database : String) (statements : List Statement) : Comparison :=
  statements.foldl (fun comparison s => comparison.push s.effect s.change)
    { database := database }

/-- Whether there is nothing to change. -/
def isEmpty (comparison : Comparison) : Bool := comparison.changes.isEmpty

/-- The number of destructive changes. -/
def destructiveCount (comparison : Comparison) : Nat :=
  comparison.changes.countP (·.isDestructive)

@[simp] theorem changes_push (comparison : Comparison) (effect : Effect) (change : Change) :
    (comparison.push effect change).changes = comparison.changes ++ [change] := by
  cases effect <;> rfl

@[simp] theorem database_push (comparison : Comparison) (effect : Effect) (change : Change) :
    (comparison.push effect change).database = comparison.database := by
  cases effect <;> rfl

theorem changes_foldl_push (start : Comparison) (statements : List Statement) :
    (statements.foldl (fun c s => c.push s.effect s.change) start).changes
      = start.changes ++ statements.map Statement.change := by
  induction statements generalizing start with
  | nil => simp
  | cons s rest ih => rw [List.foldl_cons, ih, changes_push]; simp

/-- The changes of a plan are its statements in order. -/
@[simp] theorem changes_ofStatements (database : String) (statements : List Statement) :
    (ofStatements database statements).changes = statements.map Statement.change := by
  simp [ofStatements, changes_foldl_push]

theorem counters_foldl_push (start : Comparison) (statements : List Statement) :
    let last := statements.foldl (fun c s => c.push s.effect s.change) start
    last.additions = start.additions + statements.countP (·.effect == .addition) ∧
      last.alterations = start.alterations + statements.countP (·.effect == .alteration) ∧
      last.deletions = start.deletions + statements.countP (·.effect == .deletion) := by
  induction statements generalizing start with
  | nil => simp
  | cons s rest ih =>
    obtain ⟨h1, h2, h3⟩ := ih (start.push s.effect s.change)
    refine ⟨?_, ?_, ?_⟩ <;> simp only [List.foldl_cons, h1, h2, h3, List.countP_cons] <;>
      cases s.effect <;> simp [push] <;> omega

/-- The counters of a plan count its statements by effect. -/
theorem counters_ofStatements (database : String) (statements : List Statement) :
    (ofStatements database statements).additions = statements.countP (·.effect == .addition) ∧
      (ofStatements database statements).alterations
        = statements.countP (·.effect == .alteration) ∧
      (ofStatements database statements).deletions
        = statements.countP (·.effect == .deletion) := by
  simpa [ofStatements] using counters_foldl_push { database := database } statements

theorem database_foldl_push (start : Comparison) (statements : List Statement) :
    (statements.foldl (fun c s => c.push s.effect s.change) start).database
      = start.database := by
  induction statements generalizing start with
  | nil => rfl
  | cons s rest ih => rw [List.foldl_cons, ih, database_push]

@[simp] theorem database_ofStatements (database : String) (statements : List Statement) :
    (ofStatements database statements).database = database := by
  simp [ofStatements, database_foldl_push]

end Comparison

end SchemaPlan
