set_option autoImplicit false

/-!
# Arguments

How a row of arguments is taken apart into options, flags and operands.  An
option has a long name, `--name value` or `--name=value`, and perhaps a short
one, `-n value`, `-nvalue` or `-n=value`; short flags may share one dash.  Behind
a double dash everything is an operand.

Arguments are read from left to right, and the first that cannot be read decides;
so a request for help counts unless something before it is refused.  What is
missing is noticed only after the last.
-/

namespace SchemaPlan.CommandLine

/-- What an option takes. -/
inductive Takes
  | nothing
  | text
  /-- A path, which is not empty. -/
  | path
  deriving DecidableEq, Repr

/-- An option or a flag. -/
structure Switch where
  name : String
  short : Option Char := none
  takes : Takes
  deriving DecidableEq, Repr

/-- Whether a value can be taken. -/
def Takes.accepts (takes : Takes) (value : String) : Bool := takes != .path || value != ""

/-- What can be given.  Where no operands are listed the first one is the name of
a command and ends the reading. -/
structure Grammar where
  options : List Switch
  /-- What each operand takes. -/
  operands : Option (List Takes)
  deriving DecidableEq, Repr

/-- Why arguments are refused. -/
inductive UsageFault
  | help
  | unknownOption (argument : String)
  | missingValue (name : String)
  | unexpectedValue (name : String)
  | emptyPath
  | repeatedOption (name : String)
  | unknownCommand (name : String)
  | missingCommand
  | missingOperand (name : String)
  | extraOperand (argument : String)
  | conflict (one other : String)
  deriving DecidableEq, Repr

/-- Why arguments are refused, in words. -/
def UsageFault.message : UsageFault → String
  | help => "help was asked for"
  | unknownOption argument => "unexpected argument " ++ argument
  | missingValue name => "a value is required for --" ++ name
  | unexpectedValue name => "no value can be given to --" ++ name
  | emptyPath => "a path cannot be empty"
  | repeatedOption name => "--" ++ name ++ " cannot be given twice"
  | unknownCommand name => "unknown command " ++ name
  | missingCommand => "a command is required"
  | missingOperand name => "the operand " ++ name ++ " is required"
  | extraOperand argument => "unexpected argument " ++ argument
  | conflict one other => "--" ++ one ++ " cannot be given with --" ++ other

/-- What was given: options with their values (flags with none) and operands, in
order. -/
structure Given where
  options : List (String × String) := []
  operands : List String := []
  deriving DecidableEq, Repr

namespace Given

/-- Whether an option was given. -/
def has (given : Given) (name : String) : Bool := given.options.any fun o => o.1 == name

/-- The value of an option. -/
def value? (given : Given) (name : String) : Option String :=
  (given.options.find? fun o => o.1 == name).map (·.2)

/-- Add an option, which can be given once. -/
def add (given : Given) (option : Switch) (value : String) : Except UsageFault Given :=
  if given.has option.name then .error (.repeatedOption option.name)
  else if option.takes.accepts value then
    .ok { given with options := given.options ++ [(option.name, value)] }
  else .error .emptyPath

/-- Add an operand, if there is one more to give. -/
def addOperand (given : Given) (operands : List Takes) (value : String) :
    Except UsageFault Given :=
  match operands[given.operands.length]? with
  | none => .error (.extraOperand value)
  | some takes =>
    if takes.accepts value then .ok { given with operands := given.operands ++ [value] }
    else .error .emptyPath

/-- Add operands in order. -/
def addOperands (operands : List Takes) (given : Given) : List String → Except UsageFault Given
  | [] => .ok given
  | value :: rest =>
    match given.addOperand operands value with
    | .error fault => .error fault
    | .ok given => addOperands operands given rest

end Given

/-- An option that still waits for its value, if any, after an argument was
read. -/
abbrev Pending := Given × Option Switch

/-- Read an argument with a long name. -/
def readLong (options : List Switch) (given : Given) (argument : String) :
    Except UsageFault Pending :=
  let body := argument.toList.drop 2
  let name := String.ofList (body.takeWhile (· ≠ '='))
  let value := body.dropWhile (· ≠ '=')
  if name == "help" then .error (if value.isEmpty then .help else .unexpectedValue name)
  else
    match options.find? fun o => o.name == name with
    | none => .error (.unknownOption argument)
    | some option =>
      match value with
      | '=' :: value =>
        if option.takes = .nothing then .error (.unexpectedValue name)
        else (given.add option (String.ofList value)).map fun given => (given, none)
      | _ =>
        if option.takes = .nothing then (given.add option "").map fun given => (given, none)
        else .ok (given, some option)

/-- Read short names that share a dash. -/
def readShort (options : List Switch) (argument : String) :
    Given → List Char → Except UsageFault Pending
  | given, [] => .ok (given, none)
  | given, c :: rest =>
    if c = 'h' then .error .help
    else
      match options.find? fun o => o.short == some c with
      | none => .error (.unknownOption argument)
      | some option =>
        if option.takes = .nothing then
          match given.add option "" with
          | .error fault => .error fault
          | .ok given => readShort options argument given rest
        else
          match rest with
          | [] => .ok (given, some option)
          | '=' :: value =>
            (given.add option (String.ofList value)).map fun given => (given, none)
          | value => (given.add option (String.ofList value)).map fun given => (given, none)

/-- Whether an argument is an option, by its form. -/
def looksLikeOption (argument : String) : Bool :=
  match argument.toList with
  | '-' :: _ :: _ => true
  | _ => false

/-- Read one argument that looks like an option. -/
def readOption (options : List Switch) (given : Given) (argument : String) :
    Except UsageFault Pending :=
  match argument.toList with
  | '-' :: '-' :: _ => readLong options given argument
  | _ => readShort options argument given (argument.toList.drop 1)

/-- Read arguments.  The rest starts with the operand that ends the reading. -/
def readArguments (grammar : Grammar) :
    Given → List String → Except UsageFault (Given × List String)
  | given, [] => .ok (given, [])
  | given, argument :: rest =>
    if argument == "--" then
      match grammar.operands with
      | none => .error .missingCommand
      | some operands => (given.addOperands operands rest).map fun given => (given, [])
    else if looksLikeOption argument then
      match readOption grammar.options given argument with
      | .error fault => .error fault
      | .ok (given, none) => readArguments grammar given rest
      | .ok (given, some option) =>
        match rest with
        | [] => .error (.missingValue option.name)
        | value :: rest =>
          if looksLikeOption value then .error (.missingValue option.name)
          else
            match given.add option value with
            | .error fault => .error fault
            | .ok given => readArguments grammar given rest
    else
      match grammar.operands with
      | none => .ok (given, argument :: rest)
      | some operands =>
        match given.addOperand operands argument with
        | .error fault => .error fault
        | .ok given => readArguments grammar given rest

end SchemaPlan.CommandLine
