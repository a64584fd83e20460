import SchemaPlan.Applying
import SchemaPlan.Catalog.Analysis
import SchemaPlan.Config.Text
import SchemaPlan.Plan.Diff
import SchemaPlan.Snapshot.Document

set_option autoImplicit false

/-!
# Working with the configured databases

What a user can do under given settings: look at the local snapshot, import a
database into it, compare databases with it, and apply a comparison.
-/

namespace SchemaPlan

/-- The settings of a file. -/
def Settings.load (path : String) : Action Settings := fun w =>
  match w.files.read? path with
  | none => (.error (.config (.unreadable path)), w)
  | some text => (Settings.ofText path text, w)

/-- The snapshot of a file. -/
def Snapshot.load (path : String) : Action Snapshot := do
  .ofExcept (Snapshot.ofText (← Action.readFile path))

/-- Put a snapshot into a file. -/
def Snapshot.save (snapshot : Snapshot) (path : String) : Action Unit :=
  .writeFile path snapshot.text

/-- The schema that is meant in a file. -/
def Schema.load (path : String) (name : Option String) : Action Schema := do
  .ofExcept (Schema.select path name (← Action.readFile path))

/-- Put a schema into a file. -/
def Schema.save (schema : Schema) (path : String) : Action Unit :=
  .writeFile path schema.text

/-- Log in to the database behind a connection, if the settings can be used for it. -/
def Connection.logIn (connection : Connection) (settings : ApplySettings) : Action Unit := do
  .ofExcept settings.check
  Action.logIn connection.login

/-- The schema of the database behind a connection. -/
def Connection.introspect (connection : Connection) (settings : ApplySettings) :
    Action Schema := do
  connection.logIn settings
  let entry ← Action.readCatalog connection.login
  .ofSchemaCheck (entry.toSchema connection.name)

namespace Settings

/-- The local snapshot. -/
def localSnapshot (settings : Settings) : Action Snapshot := Snapshot.load settings.snapshotPath

/-- Import the database behind a connection, as the schema that it is compared
with. -/
def importSchema (settings : Settings) (key : String) : Action Schema := do
  let connection ← .ofExcept (settings.connection key)
  let schema ← connection.introspect settings.applySettings
  pure { schema with name := connection.schemaName }

/-- Store a schema in the local snapshot, which is made if it is missing. -/
def storeSchema (settings : Settings) (schema : Schema) : Action Unit := do
  let snapshot ←
    if ← Action.hasPath settings.snapshotPath then settings.localSnapshot else pure {}
  (snapshot.upsert schema).save settings.snapshotPath

/-- Compare the database behind a connection with a schema. -/
def compareConnection (settings : Settings) (schema : Schema) (connection : Connection) :
    Action Comparison := do
  let current ← connection.introspect settings.applySettings
  let comparison ← .ofSchemaCheck (schema.diff current connection.name)
  pure { comparison with database := connection.label, databaseKey := connection.key }

/-- The schema of a name in a snapshot. -/
def schemaOf (snapshot : Snapshot) (name : String) : Except Fault Schema :=
  match snapshot.find? name with
  | some schema => .ok schema
  | none => .error (.schemaNotFound name)

/-- Compare one database with one schema of the local snapshot. -/
def compareOne (settings : Settings) (schemaName key : String) : Action Comparison := do
  let snapshot ← settings.localSnapshot
  let schema ← .ofExcept (schemaOf snapshot schemaName)
  let connection ← .ofExcept (settings.connection key)
  settings.compareConnection schema connection

/-- Compare connections in order, each with its schema of a snapshot. -/
def compareEach (settings : Settings) (snapshot : Snapshot) :
    List Connection → Action (List Comparison)
  | [] => .pure []
  | connection :: rest => do
    let schema ← .ofExcept (schemaOf snapshot connection.schemaName)
    let comparison ← settings.compareConnection schema connection
    let others ← compareEach settings snapshot rest
    pure (comparison :: others)

/-- Compare every database with its schema of the local snapshot. -/
def compareAll (settings : Settings) : Action (List Comparison) := do
  settings.compareEach (← settings.localSnapshot) settings.connections

/-- Apply a comparison to the database that it was made for. -/
def apply (settings : Settings) (comparison : Comparison) : Action ApplyReport := do
  let connection ← .ofExcept (settings.connection comparison.databaseKey)
  connection.logIn settings.applySettings
  comparison.apply settings.applySettings.safeMode settings.changeLogPath

end Settings

end SchemaPlan
