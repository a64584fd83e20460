set_option autoImplicit false

/-!
# Names of constants

A name is written in one piece, each of its words with a capital letter
(`AddColumn`).  As a constant it is in capitals throughout, with an underscore
between two words (`ADD_COLUMN`).
-/

namespace SchemaPlan.Text

/-- Put an underscore before each capital letter but the first character. -/
def splitWords : List Char → List Char
  | [] => []
  | c :: rest => c :: rest.flatMap fun d => if d.isUpper then ['_', d] else [d]

/-- A name as a constant. -/
def constantName (name : String) : String :=
  String.ofList ((splitWords name.toList).map Char.toUpper)

end SchemaPlan.Text
