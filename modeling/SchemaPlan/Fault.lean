import SchemaPlan.Ddl.ChangeKind
import SchemaPlan.Json.Decode
import SchemaPlan.Model.Validation

set_option autoImplicit false

/-!
# Faults

Everything that can go wrong, by its cause.  The words are chosen in one place,
`Fault.message`.
-/

namespace SchemaPlan

/-- What is wrong with a configuration, or with what a user asks of a file. -/
inductive ConfigFault
  | unreadable (path : String)
  | malformed (path : String)
  | duplicateKey (key : String)
  /-- A file with several schemas, or none, of which none was named. -/
  | ambiguous (path : String) (count : Nat)
  deriving DecidableEq, Repr

/-- What is wrong, in words. -/
def ConfigFault.message : ConfigFault → String
  | unreadable path => "Failed to read config file " ++ path
  | malformed path => "Failed to parse config file " ++ path
  | duplicateKey key => "Duplicate connection key: " ++ key
  | ambiguous path count =>
    path ++ " holds " ++ toString count ++ " schemas; pick one by name"

/-- A server's refusal of a statement. -/
structure Refusal where
  code : Nat
  state : String
  message : String
  deriving DecidableEq, Repr, Inhabited

/-- A refusal in words. -/
def Refusal.text (refusal : Refusal) : String :=
  "error returned from database: " ++ toString refusal.code ++ " (" ++ refusal.state ++ "): "
    ++ refusal.message

/-- A statement that was refused: the database as reports name it, the position
among all changes of the comparison, and the change. -/
structure FailedChange where
  database : String
  index : Nat
  kind : ChangeKind
  sql : String
  refusal : Refusal
  deriving DecidableEq, Repr

/-- What a command is at when something goes wrong. -/
inductive Task
  | startLogging
  | load (path : String)
  | write (path : String)
  | update (path : String)
  | apply (key : String)
  deriving DecidableEq, Repr

/-- A task that failed, in words. -/
def Task.message : Task → String
  | startLogging => "Failed to initialize logging"
  | load path => "Failed to load " ++ path
  | write path => "Failed to write " ++ path
  | update path => "Failed to update " ++ path
  | apply key => "Failed to apply changes to " ++ key

/-- What stops a run at once: it asks for something that cannot be had. -/
inductive Breakdown
  /-- A pool that has room for no connection. -/
  | emptyPool
  /-- A time limit that ends later than clocks can tell. -/
  | endlessWait
  /-- A table with a column that is too wide to be filled up. -/
  | wideColumn
  deriving DecidableEq, Repr

/-- What cannot be had, in words. -/
def Breakdown.message : Breakdown → String
  | emptyPool => "a pool must have room for a connection"
  | endlessWait => "a time limit must end within the range of clocks"
  | wideColumn => "a column of a table is too wide"

/-- Why an operation fails. -/
inductive Fault
  | invalidSchema (fault : SchemaFault)
  | schemaNotFound (name : String)
  | connectionNotFound (key : String)
  | config (fault : ConfigFault)
  | failedChange (failed : FailedChange)
  /-- A file or a directory cannot be used. -/
  | files
  /-- A login or a query of the catalog fails. -/
  | server
  /-- A text is not the document that is expected. -/
  | malformedText
  /-- A document cannot be read into a value. -/
  | decoding (error : Json.DecodeError)
  /-- Something fails in the course of a task. -/
  | during (task : Task) (cause : Fault)
  /-- The run stops at once, whatever it is at. -/
  | breakdown (reason : Breakdown)
  deriving DecidableEq, Repr

/-- A fault in words.  What an operating system or a server says about a cause
is not part of it. -/
def Fault.message : Fault → String
  | invalidSchema fault => "Invalid schema: " ++ fault.message
  | schemaNotFound name => "Schema \x60" ++ name ++ "\x60 not found in local snapshot"
  | connectionNotFound key => "Connection \x60" ++ key ++ "\x60 not found in configuration"
  | config fault => "Configuration error: " ++ fault.message
  | failedChange f =>
    "DDL execution failed on " ++ f.database ++ " at change #" ++ toString f.index ++ " ("
      ++ f.kind.tag ++ "):\n\n" ++ f.sql ++ "\n\n" ++ f.refusal.text
  | files => "IO error"
  | server => "SQLx error"
  | malformedText => "Serialization error"
  | decoding error => "Serialization error: " ++ error.message
  | during task _ => task.message
  | breakdown reason => reason.message

end SchemaPlan
