set_option autoImplicit false

/-!
# JSON documents

A document as a value.  A number keeps its literal, so that a whole number and
one with a fraction stay apart, and an object keeps its members in order, a
repeated key included: what a repeated key means is for the reader of the
document to say.
-/

namespace SchemaPlan

/-- A number as it is written: a sign, a whole part, the digits of a fraction
(none without a point) and an exponent. -/
structure Json.Number where
  negative : Bool := false
  whole : Nat
  fraction : List Nat := []
  exponent : Option Int := none
  deriving DecidableEq, Repr, Inhabited

/-- A JSON document. -/
inductive Json
  | null
  | bool (value : Bool)
  | number (literal : Json.Number)
  | string (text : String)
  | array (items : List Json)
  | object (members : List (String × Json))
  /-- A part that is well formed but denotes nothing: a string with half of a
  surrogate pair, or an object with such a key.  It may be skipped, not read. -/
  | unreadable
  deriving Repr, Inhabited

namespace Json

/-- A natural number as a document. -/
def ofNat (n : Nat) : Json := .number ⟨false, n, [], none⟩

/-- The first member with a key. -/
def member? (key : String) : Json → Option Json
  | .object members => (members.find? fun m => m.1 == key).map (·.2)
  | _ => none

end Json

end SchemaPlan
