import SchemaPlan.Plan.Comparison

set_option autoImplicit false

/-!
# Scripts

A comparison as a script that a person can read and a server can run: a heading,
each statement under a comment with its kind, and an end mark.
-/

namespace SchemaPlan.Comparison

/-- What a report calls the comparison: the key of the connection, or else the
database. -/
def title (comparison : Comparison) : String :=
  if comparison.databaseKey == "" then comparison.database else comparison.databaseKey

/-- A change in a script: its kind as a comment, then its statement. -/
def changeText (change : Change) : String :=
  "-- " ++ change.kind.tag ++ "\n" ++ change.sql ++ "\n"

/-- The heading of a script. -/
def scriptHead (comparison : Comparison) : String :=
  "-- \n-- Changes for " ++ comparison.title ++ " (" ++ comparison.database ++ ")\n-- "
    ++ toString comparison.additions ++ " additions, "
    ++ toString comparison.alterations ++ " alterations, "
    ++ toString comparison.deletions ++ " deletions\n-- \n\n"

/-- The end mark of a script. -/
def scriptFoot (comparison : Comparison) : String :=
  "\n--\n-- End for " ++ comparison.title ++ "\n--\n"

/-- The comparison as a script. -/
def script (comparison : Comparison) : String :=
  comparison.scriptHead ++ String.join (comparison.changes.map changeText)
    ++ comparison.scriptFoot

end SchemaPlan.Comparison
