import SchemaPlan.Config.Settings

set_option autoImplicit false

/-!
# Settings as documents

The document form of settings, in groups.  The snapshot's group must be there,
and in a connection its key, host, user and name.  A group may be given as an
array of its fields; whether more items than fields are an error depends on the
kind of document it stands in.
-/

namespace SchemaPlan

open Json (Field RecordFormat readText readBool readOptional readList readUInt16 readUInt32
  readUInt64)

namespace Connection

/-- The fields of a connection. -/
def format (extraItems : Bool) : RecordFormat Connection where
  extraItems := extraItems
  name := "ConnectionConfig"
  start := {}
  fields := [
    .of "key" .required readText (fun v c => { c with key := v }),
    .of "host" .required readText (fun v c => { c with host := v }),
    .of "port" .inArrays (readOptional readUInt16) (fun v c => { c with tcpPort := v }),
    .of "user" .required readText (fun v c => { c with user := v }),
    .of "pass" .optional readText (fun v c => { c with password := v }),
    .of "name" .required readText (fun v c => { c with name := v }),
    .of "schema" .inArrays (readOptional readText) (fun v c => { c with schema := v })]

/-- A connection as a document. -/
def toJson (c : Connection) : Json := .object [
  ("key", .string c.key),
  ("host", .string c.host),
  ("port", (c.tcpPort.map fun p => Json.ofNat p.toNat).getD .null),
  ("user", .string c.user),
  ("pass", .string c.password),
  ("name", .string c.name),
  ("schema", (c.schema.map Json.string).getD .null)]

end Connection

namespace ApplySettings

/-- The fields of the group on applying changes. -/
def format (extraItems : Bool) : RecordFormat ApplySettings where
  extraItems := extraItems
  name := "ExecutorConfig"
  start := {}
  fields := [
    .of "safe_mode" .optional readBool (fun v s => { s with safeMode := v }),
    .of "pool_size" .inArrays (readOptional readUInt32) (fun v s => { s with poolSize := v }),
    .of "timeout_seconds" .inArrays (readOptional readUInt64)
      (fun v s => { s with timeoutSeconds := v })]

/-- The group on applying changes as a document. -/
def toJson (s : ApplySettings) : Json := .object [
  ("safe_mode", .bool s.safeMode),
  ("pool_size", (s.poolSize.map fun n => Json.ofNat n.toNat).getD .null),
  ("timeout_seconds", (s.timeoutSeconds.map fun n => Json.ofNat n.toNat).getD .null)]

end ApplySettings

namespace LogSettings

/-- The fields of the group on logging. -/
def format (extraItems : Bool) : RecordFormat LogSettings where
  extraItems := extraItems
  name := "LoggingConfig"
  start := {}
  fields := [
    .of "level" .required readText (fun v s => { s with level := v }),
    .of "file" .inArrays (readOptional readText) (fun v s => { s with file := v }),
    .of "format" .optional readText (fun v s => { s with style := v }),
    .of "stdout" .optional readBool (fun v s => { s with console := v })]

/-- The group on logging as a document. -/
def toJson (s : LogSettings) : Json := .object [
  ("level", .string s.level),
  ("file", (s.file.map Json.string).getD .null),
  ("format", .string s.style),
  ("stdout", .bool s.console)]

end LogSettings

/-- A group that holds one path. -/
def pathFormat (name : String) (extraItems : Bool) : RecordFormat String where
  extraItems := extraItems
  name := name
  start := ""
  fields := [.of "path" .required readText (fun v _ => v)]

/-- A path as a group. -/
def pathToJson (path : String) : Json := .object [("path", .string path)]

namespace Settings

/-- The groups of settings. -/
def format (extraItems : Bool) : RecordFormat Settings where
  extraItems := extraItems
  name := "Config"
  start := {}
  fields := [
    .of "schema" .required (pathFormat "SchemaConfig" extraItems).decode
      (fun v s => { s with snapshotPath := v }),
    .of "connections" .optional (readList (Connection.format extraItems).decode)
      (fun v s => { s with connections := v }),
    .of "executor" .inArrays (readOptional (ApplySettings.format extraItems).decode)
      (fun v s => { s with applying := v }),
    .of "changelog" .inArrays (readOptional (pathFormat "ChangeLogConfig" extraItems).decode)
      (fun v s => { s with changeLogPath := v }),
    .of "logging" .inArrays (readOptional (LogSettings.format extraItems).decode)
      (fun v s => { s with logging := v })]

/-- Read settings. -/
def decode : Json.Decoder Settings := (format false).decode

/-- Settings as a document. -/
def toJson (s : Settings) : Json := .object [
  ("schema", pathToJson s.snapshotPath),
  ("connections", .array (s.connections.map Connection.toJson)),
  ("executor", (s.applying.map ApplySettings.toJson).getD .null),
  ("changelog", (s.changeLogPath.map pathToJson).getD .null),
  ("logging", (s.logging.map LogSettings.toJson).getD .null)]

end Settings

end SchemaPlan
