import SchemaPlan.Client
import SchemaPlan.CommandLine.Command
import SchemaPlan.Plan.Document
import SchemaPlan.Plan.Summary

set_option autoImplicit false

/-!
# Running a command

A command is an action that prints.  It succeeds or fails with a fault; what it
printed before stays.
-/

namespace SchemaPlan.CommandLine

/-- Comparisons as they are printed, unless they are to stand in a table that they do
not fit. -/
def printedText (form : OutputForm) (comparisons : List Comparison) : Except Fault String :=
  match form with
  | .script => .ok (String.join (comparisons.map Comparison.script))
  | .document => .ok ((Json.array (comparisons.map Comparison.toJson)).pretty ++ "\n")
  | .summary =>
    match Summary.render? comparisons with
    | some table => .ok table
    | none => .error (.breakdown .wideColumn)

/-- Print comparisons. -/
def printComparisons (form : OutputForm) (comparisons : List Comparison) : Action Unit := do
  Action.print (← .ofExcept (printedText form comparisons))

/-- Start logging: a file that is logged to is made if it is missing. -/
def startLogging (settings : Option LogSettings) : Action Unit :=
  match settings.bind LogSettings.file with
  | some path => .during .startLogging (.appendFile path "")
  | none => .pure ()

/-- Apply each comparison that has changes. -/
def applyEach (settings : Settings) : List Comparison → Action Unit
  | [] => .pure ()
  | comparison :: rest =>
    if comparison.isEmpty then applyEach settings rest
    else do
      let _ ← Action.during (.apply comparison.databaseKey) (settings.apply comparison)
      applyEach settings rest

/-- The command `diff`; settings are looked at only if their file is there. -/
def runDiff (configPath target current : String) (schema database : Option String)
    (form : OutputForm) : Action Unit := do
  let logging ←
    if ← Action.hasPath configPath then do
      pure (← Settings.load configPath).logging
    else pure none
  startLogging logging
  let targetSchema ← Action.during (.load target) (Schema.load target schema)
  let currentSchema ← Action.during (.load current) (Schema.load current schema)
  let comparison ←
    Action.ofSchemaCheck (targetSchema.diff currentSchema (database.getD targetSchema.name))
  printComparisons form [comparison]

/-- The command `compare`. -/
def runCompare (configPath : String) (one : Option (String × String)) (form : OutputForm)
    (apply : Bool) : Action Unit := do
  let settings ← Settings.load configPath
  startLogging settings.logging
  let comparisons ←
    match one with
    | some (schema, key) => do
      pure [← settings.compareOne schema key]
    | none => settings.compareAll
  printComparisons form comparisons
  if apply then applyEach settings comparisons else pure ()

/-- The command `import`. -/
def runImport (configPath key : String) (output : Option String) : Action Unit := do
  let settings ← Settings.load configPath
  startLogging settings.logging
  let schema ← settings.importSchema key
  match output with
  | some path => Action.during (.write path) (schema.save path)
  | none => Action.during (.update settings.snapshotPath) (settings.storeSchema schema)

/-- Run a command. -/
def run (invocation : Invocation) : Action Unit :=
  match invocation.command with
  | .diff target current schema database form =>
    runDiff invocation.configPath target current schema database form
  | .compare one form apply => runCompare invocation.configPath one form apply
  | .importSchema key output => runImport invocation.configPath key output

/-- How a run ends: the exit code and the world it leaves. -/
inductive Outcome
  | done (world : World)
  | failed (fault : Fault) (world : World)
  | refused (fault : UsageFault)

/-- Run the program with arguments in a world. -/
def runArguments (arguments : List String) (world : World) : Outcome :=
  match readInvocation arguments with
  | .error fault => .refused fault
  | .ok invocation =>
    match run invocation world with
    | (.ok (), world) => .done world
    | (.error fault, world) => .failed fault world

/-- The exit code of a fault: one, or 101 if the run broke down, whatever it was at. -/
def faultCode : Fault → Nat
  | .breakdown _ => 101
  | .during _ cause => faultCode cause
  | _ => 1

/-- The exit code of a run: that of a fault, or two for arguments that make no
command. -/
def Outcome.exitCode : Outcome → Nat
  | done _ => 0
  | failed fault _ => faultCode fault
  | refused .help => 0
  | refused _ => 2

end SchemaPlan.CommandLine
