import SchemaPlan.Text.Lowercase

set_option autoImplicit false

/-!
# Data types

The column types that a plan understands, each known by its tag.  A tag is read
whatever its case; a column keeps the spelling that it came with.
-/

namespace SchemaPlan

/-- A column type. -/
inductive DataType
  | tinyint | smallint | mediumint | int | bigint
  | decimal | numeric
  | float | double
  | char | varchar
  | tinytext | mediumtext | text | longtext
  | enum | set
  | date | datetime
  deriving DecidableEq, Repr, Inhabited

namespace DataType

/-- Every type, in order of declaration. -/
def all : List DataType :=
  [tinyint, smallint, mediumint, int, bigint, decimal, numeric, float, double, char, varchar,
    tinytext, mediumtext, text, longtext, enum, set, date, datetime]

theorem mem_all (d : DataType) : d ∈ all := by
  cases d <;> decide

/-- The tag of a type, in lower case. -/
def tag : DataType → String
  | tinyint => "tinyint"
  | smallint => "smallint"
  | mediumint => "mediumint"
  | int => "int"
  | bigint => "bigint"
  | decimal => "decimal"
  | numeric => "numeric"
  | float => "float"
  | double => "double"
  | char => "char"
  | varchar => "varchar"
  | tinytext => "tinytext"
  | mediumtext => "mediumtext"
  | text => "text"
  | longtext => "longtext"
  | enum => "enum"
  | set => "set"
  | date => "date"
  | datetime => "datetime"

/-- The type with a tag, in any case. -/
def ofTag? (spelling : String) : Option DataType :=
  all.find? fun d => d.tag == Text.lowercase spelling

theorem tag_injective {a b : DataType} (h : a.tag = b.tag) : a = b := by
  revert h
  cases a <;> cases b <;> decide

/-- A spelling names a type if its lower case is the tag. -/
theorem ofTag?_eq_some_iff {spelling : String} {d : DataType} :
    ofTag? spelling = some d ↔ Text.lowercase spelling = d.tag := by
  constructor
  · intro h
    have hd := List.find?_some (p := fun d : DataType => d.tag == Text.lowercase spelling) h
    exact (beq_iff_eq.1 hd).symm
  · intro h
    cases hd : ofTag? spelling with
    | none =>
      have := List.find?_eq_none.1 hd d (mem_all d)
      exact absurd h.symm (by simpa using this)
    | some e =>
      have he := List.find?_some (p := fun d : DataType => d.tag == Text.lowercase spelling) hd
      exact congrArg some (tag_injective ((beq_iff_eq.1 he).trans h))

/-! ## Families -/

/-- Whole numbers. -/
def isInteger : DataType → Bool
  | tinyint | smallint | mediumint | int | bigint => true
  | _ => false

/-- Numbers with a fixed point. -/
def isFixedPoint : DataType → Bool
  | decimal | numeric => true
  | _ => false

/-- Numbers with a floating point. -/
def isFloatingPoint : DataType → Bool
  | float | double => true
  | _ => false

/-- Types whose values are written as text, dates among them, sets not. -/
def isText : DataType → Bool
  | varchar | enum | char | tinytext | mediumtext | text | longtext | date | datetime => true
  | _ => false

/-- Types defined with the greatest length of a value. -/
def hasLength : DataType → Bool
  | char | varchar => true
  | _ => false

/-- Types whose default is a quoted text. -/
def hasQuotedDefault : DataType → Bool
  | char | varchar | enum => true
  | _ => false

/-- Types defined by the catalog's own text, which carries the list of values. -/
def hasValueList : DataType → Bool
  | enum | set => true
  | _ => false

/-- The display width of a whole number, which depends on its sign. -/
def displayWidth? : DataType → (isUnsigned : Bool) → Option Nat
  | tinyint, false => some 4
  | tinyint, true => some 3
  | smallint, false => some 6
  | smallint, true => some 5
  | mediumint, false => some 9
  | mediumint, true => some 8
  | int, false => some 11
  | int, true => some 10
  | bigint, _ => some 20
  | _, _ => none

end DataType

end SchemaPlan
