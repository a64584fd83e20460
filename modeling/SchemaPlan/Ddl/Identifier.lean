import SchemaPlan.Text.Replace

set_option autoImplicit false

/-!
# Identifiers and index names

An identifier stands between backticks.  An index on one column has a canonical
name made from a pattern; a statement that drops an index relies on it, so each
name is made here.
-/

namespace SchemaPlan

/-- An identifier between backticks. -/
def quoteIdentifier (name : String) : String := "\x60" ++ name ++ "\x60"

/-- Replace each placeholder, a word in braces, by its value: one placeholder
after the other, so a value put in earlier is searched for the later ones. -/
def fillPattern (pattern : String) (values : List (String × String)) : String :=
  values.foldl (fun text v => Text.replaceAll ("\x7b" ++ v.1 ++ "\x7d") v.2 text) pattern

/-- The two kinds of index on one column. -/
inductive IndexKind
  | plain | unique
  deriving DecidableEq, Repr, Inhabited

namespace IndexKind

/-- The pattern of the canonical names of a kind. -/
def pattern : IndexKind → String
  | plain => "i_\x7btable\x7d_\x7bcolumn\x7d"
  | unique => "ui_\x7btable\x7d_\x7bcolumn\x7d"

/-- The canonical name of the index on a column. -/
def indexName (kind : IndexKind) (table column : String) : String :=
  fillPattern kind.pattern [("table", table), ("column", column)]

end IndexKind

end SchemaPlan
