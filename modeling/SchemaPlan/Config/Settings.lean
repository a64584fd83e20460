import SchemaPlan.Fault

set_option autoImplicit false

/-!
# Settings

What a user sets: where the snapshot is, which databases there are, and how
changes are applied, kept and logged.
-/

namespace SchemaPlan

/-- A database on a server, under a key of the user's choice. -/
structure Connection where
  key : String := ""
  host : String := ""
  tcpPort : Option UInt16 := none
  user : String := ""
  password : String := ""
  /-- The database on the server. -/
  name : String := ""
  /-- The schema it is compared with, if it is not the one of its own name. -/
  schema : Option String := none
  deriving DecidableEq, Repr, Inhabited

namespace Connection

/-- The schema that a connection is compared with. -/
def schemaName (connection : Connection) : String := connection.schema.getD connection.name

/-- The database as reports name it. -/
def label (connection : Connection) : String := connection.host ++ "/" ++ connection.name

end Connection

/-- How changes are applied.  A setting left out has its default only where the
whole group of settings is left out. -/
structure ApplySettings where
  /-- Whether destructive changes are left out. -/
  safeMode : Bool := false
  poolSize : Option UInt32 := none
  timeoutSeconds : Option UInt64 := none
  deriving DecidableEq, Repr, Inhabited

/-- How changes are applied where nothing is set. -/
def ApplySettings.standard : ApplySettings := ⟨false, some 1, some 30⟩

namespace ApplySettings

/-- How many connections a pool has room for. -/
def poolRoom (settings : ApplySettings) : Nat := (settings.poolSize.getD 1).toNat

/-- How many seconds a login may take. -/
def timeLimit (settings : ApplySettings) : Nat := (settings.timeoutSeconds.getD 30).toNat

/-- The longest time limit that ends within the range of clocks.  A clock counts
seconds in 63 bits from a start that lies an hour back at least. -/
def longestTimeLimit : Nat := Nat.pow 2 63 - 1 - 3600

/-- Settings can be used to connect if the time limit ends and the pool has room. -/
def check (settings : ApplySettings) : Except Fault Unit :=
  if longestTimeLimit < settings.timeLimit then .error (.breakdown .endlessWait)
  else if settings.poolRoom = 0 then .error (.breakdown .emptyPool)
  else .ok ()

end ApplySettings

/-- How a program logs what it does. -/
structure LogSettings where
  level : String := ""
  file : Option String := none
  style : String := "text"
  console : Bool := true
  deriving DecidableEq, Repr, Inhabited

/-- All settings. -/
structure Settings where
  snapshotPath : String := ""
  connections : List Connection := []
  applying : Option ApplySettings := none
  changeLogPath : Option String := none
  logging : Option LogSettings := none
  deriving DecidableEq, Repr, Inhabited

namespace Settings

/-- The first connection with a key. -/
def connection (settings : Settings) (key : String) : Except Fault Connection :=
  match settings.connections.find? fun c => c.key == key with
  | some connection => .ok connection
  | none => .error (.connectionNotFound key)

/-- How changes are applied. -/
def applySettings (settings : Settings) : ApplySettings :=
  settings.applying.getD .standard

/-- The first key that stands in a list for the second time. -/
def repeatedKey? : List String → List String → Option String
  | _, [] => none
  | met, key :: rest => if met.contains key then some key else repeatedKey? (key :: met) rest

/-- Settings are accepted if each connection has a key of its own. -/
def check (settings : Settings) : Except Fault Settings :=
  match repeatedKey? [] (settings.connections.map (·.key)) with
  | some key => .error (.config (.duplicateKey key))
  | none => .ok settings

end Settings

/-! ## Log levels -/

/-- How much is logged. -/
inductive LogLevel
  | trace | debug | info | warn | error
  deriving DecidableEq, Repr, Inhabited

namespace LogLevel

/-- Every level, from most to least. -/
def all : List LogLevel := [trace, debug, info, warn, error]

/-- The name of a level, in lower case. -/
def name : LogLevel → String
  | trace => "trace"
  | debug => "debug"
  | info => "info"
  | warn => "warn"
  | error => "error"

/-- The name of a level as logs show it. -/
def label : LogLevel → String
  | trace => "TRACE"
  | debug => "DEBUG"
  | info => "INFO"
  | warn => "WARN"
  | error => "ERROR"

/-- The level with a name, in any case; an unknown name means `info`. -/
def ofName (text : String) : LogLevel :=
  (all.find? fun l => l.name == Text.lowercase text).getD info

end LogLevel

end SchemaPlan
