set_option autoImplicit false

/-!
# Column keys

How the catalog classifies a column's part in the indexes of its table.
-/

namespace SchemaPlan

/-- A column's part in the indexes of its table. -/
inductive ColumnKey
  | none | primary | unique | multiple
  deriving DecidableEq, Repr

namespace ColumnKey

instance : Inhabited ColumnKey := ⟨none⟩

/-- Every key, in order of declaration. -/
def all : List ColumnKey := [none, primary, unique, multiple]

theorem mem_all (k : ColumnKey) : k ∈ all := by
  cases k <;> decide

/-- The catalog's code of a key. -/
def code : ColumnKey → String
  | none => ""
  | primary => "PRI"
  | unique => "UNI"
  | multiple => "MUL"

/-- The name of a key in full. -/
def name : ColumnKey → String
  | none => "None"
  | primary => "Primary"
  | unique => "Unique"
  | multiple => "Multiple"

/-- The key with a code; case counts. -/
def ofCode? (code : String) : Option ColumnKey :=
  all.find? fun k => k.code == code

theorem ofCode?_code (k : ColumnKey) : ofCode? k.code = some k := by
  cases k <;> decide

theorem ofCode?_eq_some_iff {text : String} {k : ColumnKey} :
    ofCode? text = some k ↔ text = k.code := by
  constructor
  · intro h
    have := List.find?_some h
    exact (beq_iff_eq.1 this).symm
  · rintro rfl
    exact ofCode?_code k

end ColumnKey

end SchemaPlan
