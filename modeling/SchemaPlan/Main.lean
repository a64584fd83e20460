import SchemaPlan.CommandLine.Run

set_option autoImplicit false

/-!
# The program

Reads the files that a command may look at, runs the command on them, writes the
files that changed, and prints.  This program reaches no server, so a command
that needs one fails at its login.
-/

namespace SchemaPlan.Main

/-- The usage of the program. -/
def usage : String :=
  "usage: [-c FILE] [-v] COMMAND\n"
    ++ "  diff LOCAL REMOTE [--schema NAME] [--database NAME] [--json | --summarize]\n"
    ++ "  compare [SCHEMA CONNECTION] [--apply] [--json | --summarize]\n"
    ++ "  import CONNECTION [-o FILE]\n"

/-- The number of the error of reading a directory as a file. -/
def isDirectoryCode : UInt32 := 21

/-- Add the file or the directory at a path, if it can be read. -/
def collect (files : Files) (path : String) : IO Files := do
  try
    let text ← IO.FS.readFile path
    return (files.write? path text).getD files
  catch
    | .inappropriateType _ code _ =>
      if code == isDirectoryCode then
        return files.makeWay (Path.start path) (Path.parts path)
      return files
    | _ => return files

/-- The files that settings lead to. -/
def pathsOf (settings : Settings) : List String :=
  settings.snapshotPath :: settings.changeLogPath.toList
    ++ (settings.logging.bind LogSettings.file).toList

/-- The files that a command is given by name. -/
def namedPaths (invocation : CommandLine.Invocation) : List String :=
  match invocation.command with
  | .diff target current _ _ _ => [invocation.configPath, target, current]
  | .compare .. => [invocation.configPath]
  | .importSchema _ output => invocation.configPath :: output.toList

/-- The files that a command may look at. -/
def gather (invocation : CommandLine.Invocation) : IO Files := do
  let files ← (namedPaths invocation).foldlM collect {}
  match (files.read? invocation.configPath).map (Settings.ofText invocation.configPath) with
  | some (.ok settings) => (pathsOf settings).foldlM collect files
  | _ => return files

/-- Make the directories that a run made and write the files that it changed. -/
def keep (before after : Files) : IO Unit := do
  after.directories.reverse.forM fun place => do
    if !before.directories.contains place then
      try IO.FS.createDir place.path catch _ => return ()
  after.texts.entries.forM fun entry => do
    if before.texts.get? entry.1 != some entry.2 then IO.FS.writeFile entry.1 entry.2

/-- Run the program. -/
def runProgram (arguments : List String) : IO UInt32 := do
  let files ←
    match CommandLine.readInvocation arguments with
    | .ok invocation => gather invocation
    | .error _ => pure {}
  let world : World := { files := files, server := .unreachable, now := 0 }
  let outcome := CommandLine.runArguments arguments world
  match outcome with
  | .done after =>
    keep files after.files
    IO.print after.printed
  | .failed fault after =>
    keep files after.files
    IO.print after.printed
    IO.eprintln ("Error: " ++ fault.message)
  | .refused .help => IO.print usage
  | .refused fault => IO.eprintln ("error: " ++ fault.message ++ "\n\n" ++ usage)
  return outcome.exitCode.toUInt32

end SchemaPlan.Main

/-- The command line. -/
def main (arguments : List String) : IO UInt32 := SchemaPlan.Main.runProgram arguments
