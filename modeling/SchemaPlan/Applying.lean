import SchemaPlan.ChangeLog

set_option autoImplicit false

/-!
# Applying changes

The changes of a comparison are sent one at a time, in order, up to the first
that the server refuses; what was sent before stays.  In safe mode destructive
changes are left out.  Before anything is sent the whole comparison is added to
the change log.
-/

namespace SchemaPlan

/-- How many changes were applied and how many left out. -/
structure ApplyReport where
  applied : Nat := 0
  skipped : Nat := 0
  deriving DecidableEq, Repr, Inhabited

namespace Comparison

/-- Whether a change is left out. -/
def skips (safeMode : Bool) (change : Change) : Bool := safeMode && change.isDestructive

/-- Send changes, of which the first has position `index`. -/
def sendChanges (database : String) (safeMode : Bool) :
    Nat → ApplyReport → List Change → Action ApplyReport
  | _, report, [] => .pure report
  | index, report, change :: rest =>
    if skips safeMode change then
      sendChanges database safeMode (index + 1)
        { report with skipped := report.skipped + 1 } rest
    else do
      match ← Action.send change.sql with
      | some refusal =>
        .fail (.failedChange ⟨database, index, change.kind, change.sql, refusal⟩)
      | none =>
        sendChanges database safeMode (index + 1)
          { report with applied := report.applied + 1 } rest

/-- Apply the changes over a connection that is open. -/
def apply (comparison : Comparison) (safeMode : Bool) (changeLog : Option String) :
    Action ApplyReport :=
  if comparison.isEmpty then .pure {}
  else do
    match changeLog with
    | some path => ChangeLog.append path comparison (← Action.now)
    | none => pure ()
    sendChanges comparison.database safeMode 0 {} comparison.changes

end Comparison

end SchemaPlan
