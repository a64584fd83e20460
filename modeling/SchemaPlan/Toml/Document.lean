import SchemaPlan.Json.Basic
import SchemaPlan.Toml.Basic

set_option autoImplicit false

/-!
# TOML as a document

Settings are read from a TOML table through the document form that they share
with JSON.  No setting is a float, so a float denotes nothing there.  A date is
an object whose one member no setting has: it can be skipped, and it can stand
for a group of settings that may all be left out.
-/

namespace SchemaPlan.Toml

/-- A whole number as a document. -/
def integerToJson (value : Int) : Json := .number ⟨decide (value < 0), value.natAbs, [], none⟩

/-- The one member of a date. -/
def dateTimeMember : String := "date-time"

mutual

/-- A TOML value as a document. -/
def toJson : Toml → Json
  | .string text => .string text
  | .integer value => integerToJson value
  | .boolean value => .bool value
  | .float _ => .unreadable
  | .dateTime literal => .object [(dateTimeMember, .string literal)]
  | .array items => .array (itemsToJson items)
  | .table _ entries => .object (entriesToJson entries)
  | .tables latest => .array (tablesToJson latest).reverse
termination_by structural t => t

/-- Values as the parts of an array. -/
def itemsToJson : List Toml → List Json
  | [] => []
  | t :: rest => toJson t :: itemsToJson rest
termination_by structural ts => ts

/-- The entries of a table as the members of an object. -/
def entriesToJson : List (String × Toml) → List (String × Json)
  | [] => []
  | (key, t) :: rest => (key, toJson t) :: entriesToJson rest
termination_by structural es => es

/-- An array of tables, latest first, as objects in that order. -/
def tablesToJson : List (List (String × Toml)) → List Json
  | [] => []
  | entries :: rest => .object (entriesToJson entries) :: tablesToJson rest
termination_by structural ts => ts

end

end SchemaPlan.Toml
