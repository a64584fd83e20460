import SchemaPlan.Calendar
import SchemaPlan.Plan.Script
import SchemaPlan.World.Action

set_option autoImplicit false

/-!
# Change logs

Each set of changes that is applied is added to the end of a text: a stamp of
the moment, its script, and an empty line.
-/

namespace SchemaPlan.ChangeLog

/-- The block of a comparison applied at a moment. -/
def block (comparison : Comparison) (moment : Int) : String :=
  Calendar.stamp moment ++ "\n" ++ comparison.script ++ "\n"

/-- Add the block of a comparison to a log. -/
def append (path : String) (comparison : Comparison) (moment : Int) : Action Unit :=
  .appendFile path (block comparison moment)

end SchemaPlan.ChangeLog
