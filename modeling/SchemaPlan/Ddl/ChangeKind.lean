import SchemaPlan.Text.Constant

set_option autoImplicit false

/-!
# Kinds of change
-/

namespace SchemaPlan

/-- What a change does to a database. -/
inductive ChangeKind
  | createTable | dropTable | renameTable
  | addColumn | dropColumn | changeColumn
  | addIndex | dropIndex
  | changeCharacterSet
  deriving DecidableEq, Repr, Inhabited

namespace ChangeKind

/-- Every kind, in order of declaration. -/
def all : List ChangeKind :=
  [createTable, dropTable, renameTable, addColumn, dropColumn, changeColumn,
    addIndex, dropIndex, changeCharacterSet]

theorem mem_all (k : ChangeKind) : k ∈ all := by
  cases k <;> decide

/-- The tag of a kind in scripts and messages. -/
def tag : ChangeKind → String
  | createTable => "CREATE_TABLE"
  | dropTable => "DROP_TABLE"
  | renameTable => "RENAME_TABLE"
  | addColumn => "ADD_COLUMN"
  | dropColumn => "DROP_COLUMN"
  | changeColumn => "CHANGE_COLUMN"
  | addIndex => "ADD_INDEX"
  | dropIndex => "DROP_INDEX"
  | changeCharacterSet => "CHANGE_CHARACTER_SET"

/-- The name of a kind in full. -/
def name : ChangeKind → String
  | createTable => "CreateTable"
  | dropTable => "DropTable"
  | renameTable => "RenameTable"
  | addColumn => "AddColumn"
  | dropColumn => "DropColumn"
  | changeColumn => "ChangeColumn"
  | addIndex => "AddIndex"
  | dropIndex => "DropIndex"
  | changeCharacterSet => "ChangeCharacterSet"

/-- The word for a kind in documents: its name as a constant. -/
def word (kind : ChangeKind) : String := Text.constantName kind.name

/-- The kind with a word; case counts. -/
def ofWord? (text : String) : Option ChangeKind :=
  all.find? fun k => k.word == text

/-- Documents name a kind as scripts and messages do. -/
theorem word_eq_tag (k : ChangeKind) : k.word = k.tag := by
  cases k <;> rfl

theorem ofWord?_word (k : ChangeKind) : ofWord? k.word = some k := by
  cases k <;> decide

/-- Whether a change of this kind removes something that planning anew does not
bring back. -/
def isDestructive : ChangeKind → Bool
  | dropTable | dropColumn | dropIndex => true
  | _ => false

end ChangeKind

end SchemaPlan
