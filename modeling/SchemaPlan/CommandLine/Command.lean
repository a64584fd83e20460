import SchemaPlan.CommandLine.Arguments

set_option autoImplicit false

/-!
# Commands

The three commands and what they are given: `diff` plans between two files,
`compare` between the snapshot and the configured databases, `import` reads a
database into the snapshot or into a file.
-/

namespace SchemaPlan.CommandLine

/-- How comparisons are printed. -/
inductive OutputForm
  | script | document | summary
  deriving DecidableEq, Repr

/-- A command with its operands. -/
inductive Command
  /-- Plan from the file `current` to the file `target`. -/
  | diff (target current : String) (schema database : Option String) (form : OutputForm)
  /-- Compare one schema with one database, or every database. -/
  | compare (one : Option (String × String)) (form : OutputForm) (apply : Bool)
  | importSchema (key : String) (output : Option String)
  deriving DecidableEq, Repr

/-- A command and what applies to all commands. -/
structure Invocation where
  configPath : String
  verbose : Bool
  command : Command
  deriving DecidableEq, Repr

/-- The file with the settings where none is named. -/
def defaultConfigPath : String := "schema_delta.toml"

/-! ## What can be given -/

/-- The options of every command, given before or after its name. -/
def sharedOptions : List Switch :=
  [⟨"config", some 'c', .path⟩, ⟨"verbose", some 'v', .nothing⟩]

/-- What can be given before the name of a command. -/
def leadingGrammar : Grammar := ⟨sharedOptions, none⟩

/-- What can be given to `diff`: one schema of each file and a name for the database,
the form of the output, and the two files. -/
def diffGrammar : Grammar where
  options := [⟨"schema", none, .text⟩, ⟨"database", none, .text⟩, ⟨"json", none, .nothing⟩,
    ⟨"summarize", none, .nothing⟩] ++ sharedOptions
  operands := some [.path, .path]

/-- What can be given to `compare`: whether the changes are applied, the form of the
output, and a schema and a database, or neither. -/
def compareGrammar : Grammar where
  options := [⟨"summarize", none, .nothing⟩, ⟨"apply", none, .nothing⟩,
    ⟨"json", none, .nothing⟩] ++ sharedOptions
  operands := some [.text, .text]

/-- What can be given to `import`: a file for the schema, and the database. -/
def importGrammar : Grammar where
  options := [⟨"output", some 'o', .path⟩] ++ sharedOptions
  operands := some [.text]

/-! ## Reading a command -/

/-- The form that is asked for; there is only one. -/
def formOf (given : Given) : Except UsageFault OutputForm :=
  match given.has "json", given.has "summarize" with
  | true, true => .error (.conflict "json" "summarize")
  | true, false => .ok .document
  | false, true => .ok .summary
  | false, false => .ok .script

/-- The command `diff`. -/
def readDiff (given : Given) : Except UsageFault Command :=
  match given.operands, formOf given with
  | _, .error fault => .error fault
  | [], _ => .error (.missingOperand "LOCAL")
  | [_], _ => .error (.missingOperand "REMOTE")
  | target :: current :: _, .ok form =>
    .ok (.diff target current (given.value? "schema") (given.value? "database") form)

/-- The command `compare`. -/
def readCompare (given : Given) : Except UsageFault Command :=
  match given.operands, formOf given with
  | _, .error fault => .error fault
  | [], .ok form => .ok (.compare none form (given.has "apply"))
  | [_], _ => .error (.missingOperand "CONNECTION")
  | schema :: key :: _, .ok form =>
    .ok (.compare (some (schema, key)) form (given.has "apply"))

/-- The command `import`. -/
def readImport (given : Given) : Except UsageFault Command :=
  match given.operands with
  | [] => .error (.missingOperand "CONNECTION")
  | key :: _ => .ok (.importSchema key (given.value? "output"))

/-- What can be given to a command and how it is read. -/
def commandNamed? (name : String) :
    Option (Grammar × (Given → Except UsageFault Command)) :=
  if name == "diff" then some (diffGrammar, readDiff)
  else if name == "compare" then some (compareGrammar, readCompare)
  else if name == "import" then some (importGrammar, readImport)
  else none

/-- Whether help can be asked for on something. -/
def isTopic (name : String) : Bool := name == "help" || (commandNamed? name).isSome

/-- Why the command `help` ends the reading: help is asked for, on the program or
on one topic, or else something behind it is no command. -/
def helpFault : List String → UsageFault
  | [] => .help
  | topic :: rest =>
    if isTopic topic then
      match rest with
      | [] => .help
      | extra :: _ => .unknownCommand extra
    else .unknownCommand topic

/-- Read the arguments of a run.  A shared option after the name of the command
counts more than one before it. -/
def readInvocation (arguments : List String) : Except UsageFault Invocation :=
  match readArguments leadingGrammar {} arguments with
  | .error fault => .error fault
  | .ok (_, []) => .error .missingCommand
  | .ok (before, name :: rest) =>
    match commandNamed? name with
    | none => .error (if name == "help" then helpFault rest else .unknownCommand name)
    | some (grammar, read) =>
      match readArguments grammar {} rest with
      | .error fault => .error fault
      | .ok (given, _) =>
        match read given with
        | .error fault => .error fault
        | .ok command =>
          .ok {
            configPath :=
              ((given.value? "config").orElse fun _ => before.value? "config").getD
                defaultConfigPath
            verbose := before.has "verbose" || given.has "verbose"
            command := command }

end SchemaPlan.CommandLine
