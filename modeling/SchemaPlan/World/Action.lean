import SchemaPlan.World.Files
import SchemaPlan.World.Server

set_option autoImplicit false

/-!
# Actions

A run happens in a world: files, servers, and what the servers were asked so
far.  An action answers or fails, and leaves a world behind in both cases; so
what was written or sent before a fault stays.
-/

namespace SchemaPlan

/-- What a run acts on. -/
structure World where
  files : Files
  server : Server
  /-- The time, in seconds since the start of 1970. -/
  now : Int
  /-- The logins that were accepted, in order. -/
  logins : List Login := []
  /-- The statements that were received, in order. -/
  received : List String := []
  /-- What was printed. -/
  printed : String := ""

/-- Something that is done in a world. -/
def Action (α : Type) := World → Except Fault α × World

namespace Action

variable {α β : Type}

/-- Do nothing. -/
def pure (a : α) : Action α := fun w => (.ok a, w)

/-- Do one thing after the other, unless the first fails. -/
def bind (first : Action α) (next : α → Action β) : Action β := fun w =>
  match first w with
  | (.ok a, w) => next a w
  | (.error fault, w) => (.error fault, w)

instance : Monad Action where
  pure := pure
  bind := bind

@[simp] theorem pure_apply (a : α) (w : World) : (Pure.pure a : Action α) w = (.ok a, w) := rfl

theorem bind_apply (first : Action α) (next : α → Action β) (w : World) :
    (first >>= next) w =
      match first w with
      | (.ok a, w) => next a w
      | (.error fault, w) => (.error fault, w) := rfl

/-- Fail. -/
def fail (fault : Fault) : Action α := fun w => (.error fault, w)

/-- An answer that does not depend on the world. -/
def ofExcept (answer : Except Fault α) : Action α := fun w => (answer, w)

/-- An answer about a schema. -/
def ofSchemaCheck (answer : Except SchemaFault α) : Action α := fun w =>
  (answer.mapError Fault.invalidSchema, w)

/-- Say in the course of what an action fails. -/
def during (task : Task) (action : Action α) : Action α := fun w =>
  match action w with
  | (.ok a, w) => (.ok a, w)
  | (.error fault, w) => (.error (.during task fault), w)

/-- Print a text. -/
def print (text : String) : Action Unit := fun w =>
  (.ok (), { w with printed := w.printed ++ text })

/-! ## Files -/

/-- The text of a file. -/
def readFile (path : String) : Action String := fun w =>
  match w.files.read? path with
  | some text => (.ok text, w)
  | none => (.error .files, w)

/-- Whether there is something at a path. -/
def hasPath (path : String) : Action Bool := fun w => (.ok (w.files.contains path), w)

/-- Put a text in the place of a file.  The directories that are made for it
stay even if the file cannot be written. -/
def writeFile (path text : String) : Action Unit := fun w =>
  let files := w.files.prepare path
  match files.put? path text with
  | some written => (.ok (), { w with files := written })
  | none => (.error .files, { w with files := files })

/-- Add a text to the end of a file, which is made if it is missing.  What is
there already is looked for once the directories are made. -/
def appendFile (path text : String) : Action Unit := fun w =>
  writeFile path (((w.files.prepare path).read? path).getD "" ++ text) w

/-- The time. -/
def now : Action Int := fun w => (.ok w.now, w)

/-! ## Servers -/

/-- Log in. -/
def logIn (login : Login) : Action Unit := fun w =>
  if w.server.accepts login then (.ok (), { w with logins := w.logins ++ [login] })
  else (.error .server, w)

/-- What the catalog says about the database that a client logged in to. -/
def readCatalog (login : Login) : Action CatalogEntry := fun w =>
  if w.server.failsQuery .schemata then (.error .server, w)
  else
    match w.server.entry? login with
    | none => (.error (.schemaNotFound login.database), w)
    | some entry =>
      if w.server.failsQuery .tables || w.server.failsQuery .columns then (.error .server, w)
      else (.ok entry, w)

/-- Send a statement; the refusal, if the server refuses it. -/
def send (sql : String) : Action (Option Refusal) := fun w =>
  (.ok (w.server.refuses? w.received.length sql), { w with received := w.received ++ [sql] })

end Action

end SchemaPlan
