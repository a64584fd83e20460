import SchemaPlan.Toml.Number
import SchemaPlan.Toml.Text

set_option autoImplicit false

/-!
# Reading TOML text

`Toml.parse?` reads a text line by line: headings, keys with values, comments.
A text that is no document has no answer.
-/

namespace SchemaPlan.Toml

/-! ## Values -/

mutual

/-- A value inside `level` arrays and tables, and what follows it. -/
def readValue : Nat → Nat → List Char → Option (Toml × List Char)
  | 0, _, _ => none
  | fuel + 1, level, input =>
    match input with
    | '[' :: rest =>
      if level + 1 < levelLimit then
        (readItems fuel (level + 1) (skipLayout false rest)).map fun found =>
          (.array found.1, found.2)
      else none
    | '\x7b' :: rest =>
      if level + 1 < levelLimit then
        match skipBlanks rest with
        | '\x7d' :: rest => some (.table .braced [], rest)
        | rest =>
          (readPairs fuel (level + 1) [] rest).map fun found =>
            (.table .braced found.1, found.2)
      else none
    | 't' :: 'r' :: 'u' :: 'e' :: rest => some (.boolean true, rest)
    | 'f' :: 'a' :: 'l' :: 's' :: 'e' :: rest => some (.boolean false, rest)
    | c :: rest =>
      if c = '"' || c = '\x27' then
        (readString (c :: rest)).map fun found => (.string (String.ofList found.1), found.2)
      else readNumber (c :: rest)
    | [] => none

/-- The items of an array up to its closing bracket. -/
def readItems : Nat → Nat → List Char → Option (List Toml × List Char)
  | 0, _, _ => none
  | fuel + 1, level, input =>
    match input with
    | ']' :: rest => some ([], rest)
    | input =>
      match readValue fuel level input with
      | none => none
      | some (item, rest) =>
        match skipLayout false rest with
        | ',' :: rest =>
          (readItems fuel level (skipLayout false rest)).map fun found =>
            (item :: found.1, found.2)
        | ']' :: rest => some ([item], rest)
        | _ => none

/-- The keys and values of a table in braces up to the closing one, added to
those read before. -/
def readPairs : Nat → Nat → Entries → List Char → Option (Entries × List Char)
  | 0, _, _, _ => none
  | fuel + 1, level, entries, input =>
    match readKey input with
    | some (path, key, '=' :: rest) =>
      match readValue fuel level (skipBlanks rest) with
      | none => none
      | some (value, rest) =>
        match put key value path entries with
        | none => none
        | some entries =>
          match skipBlanks rest with
          | ',' :: rest => readPairs fuel level entries rest
          | '\x7d' :: rest => some (entries, rest)
          | _ => none
    | _ => none

end

/-! ## Lines -/

/-- The document read so far and the heading it stands under. -/
structure State where
  entries : Entries := []
  path : List String := []
  deriving Repr

/-- Read a line with a key and a value. -/
def readPairLine (state : State) (input : List Char) : Option (State × List Char) :=
  match readKey input with
  | some (path, key, '=' :: rest) =>
    match readValue (2 * rest.length + 2) 0 (skipBlanks rest) with
    | none => none
    | some (value, rest) =>
      match within (put key value path) state.path state.entries, readRestOfLine rest with
      | some entries, some rest => some ({ state with entries := entries }, rest)
      | _, _ => none
  | _ => none

/-- Read a heading after its brackets, given what opens its table. -/
def readHeading (opens : String → Entries → Option Entries) (closing : List Char)
    (state : State) (input : List Char) : Option (State × List Char) :=
  match readKey input with
  | none => none
  | some (path, key, rest) =>
    if closing.isPrefixOf rest then
      match heading (opens key) path state.entries,
          readRestOfLine (rest.drop closing.length) with
      | some entries, some rest => some (⟨entries, path ++ [key]⟩, rest)
      | _, _ => none
    else none

/-- Read a line. -/
def readLine (state : State) (input : List Char) : Option (State × List Char) :=
  match skipBlanks input with
  | '[' :: '[' :: rest => readHeading openNext [']', ']'] state rest
  | '[' :: rest => readHeading openTable [']'] state rest
  | rest =>
    match readRestOfLine rest with
    | some rest => some (state, rest)
    | none => readPairLine state rest

/-- Read lines to the end of the input. -/
def readLines : Nat → State → List Char → Option Entries
  | _, state, [] => some state.entries
  | 0, _, _ => none
  | fuel + 1, state, input =>
    match readLine state input with
    | none => none
    | some (state, rest) => readLines fuel state rest

/-- A mark that may stand in front of a document. -/
def skipByteOrderMark : List Char → List Char
  | '\ufeff' :: rest => rest
  | input => input

/-- The document that a text is. -/
def parse? (text : String) : Option Entries :=
  let input := skipByteOrderMark text.toList
  readLines (input.length + 1) {} input

end SchemaPlan.Toml
