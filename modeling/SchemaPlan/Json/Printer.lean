import SchemaPlan.Json.Basic

set_option autoImplicit false

/-!
# Writing JSON text

`Json.compact` writes a document without blanks, `Json.pretty` with one member
or item a line, two blanks deeper at each level.  Both escape only what must be
escaped.
-/

namespace SchemaPlan.Json

/-! ## Leaves -/

/-- A digit in base sixteen, lower case. -/
def hexDigit (n : Nat) : Char := Nat.digitChar n

/-- One character as it stands in a string literal. -/
def escapeChar (c : Char) : List Char :=
  if c = '"' then ['\\', '"']
  else if c = '\\' then ['\\', '\\']
  else if c = '\x08' then ['\\', 'b']
  else if c = '\x0c' then ['\\', 'f']
  else if c = '\n' then ['\\', 'n']
  else if c = '\r' then ['\\', 'r']
  else if c = '\t' then ['\\', 't']
  else if c.toNat < 32 then
    ['\\', 'u', '0', '0', hexDigit (c.toNat / 16), hexDigit (c.toNat % 16)]
  else [c]

/-- A string literal. -/
def stringLiteral (text : String) : List Char :=
  '"' :: text.toList.flatMap escapeChar ++ ['"']

/-- A number literal. -/
def Number.literal (n : Number) : List Char :=
  (if n.negative then ['-'] else []) ++ Nat.toDigits 10 n.whole
    ++ (if n.fraction.isEmpty then [] else '.' :: n.fraction.map Nat.digitChar)
    ++ (match n.exponent with
      | none => []
      | some e => ['e', if e < 0 then '-' else '+'] ++ Nat.toDigits 10 e.natAbs)

/-- A part that denotes nothing is written as half of a surrogate pair. -/
def unreadableLiteral : List Char := ['"', '\\', 'u', 'd', '8', '0', '0', '"']

/-! ## One line -/

mutual

/-- A document without blanks. -/
def compactChars : Json → List Char
  | .null => ['n', 'u', 'l', 'l']
  | .bool true => ['t', 'r', 'u', 'e']
  | .bool false => ['f', 'a', 'l', 's', 'e']
  | .number n => n.literal
  | .string text => stringLiteral text
  | .array items => '[' :: compactItems items ++ [']']
  | .object members => '\x7b' :: compactMembers members ++ ['\x7d']
  | .unreadable => unreadableLiteral
termination_by structural j => j

/-- The parts of an array with commas between them. -/
def compactItems : List Json → List Char
  | [] => []
  | [j] => compactChars j
  | j :: rest => compactChars j ++ ',' :: compactItems rest
termination_by structural j => j

/-- The members of an object with commas between them. -/
def compactMembers : List (String × Json) → List Char
  | [] => []
  | [(key, j)] => stringLiteral key ++ ':' :: compactChars j
  | (key, j) :: rest =>
    stringLiteral key ++ ':' :: compactChars j ++ ',' :: compactMembers rest
termination_by structural j => j

end

/-- A document on one line. -/
def compact (j : Json) : String := String.ofList j.compactChars

/-! ## One part a line -/

/-- A line break and the blanks of a level. -/
def newLine (level : Nat) : List Char := '\n' :: List.replicate (2 * level) ' '

mutual

/-- A document that starts at a level. -/
def prettyChars (level : Nat) : Json → List Char
  | .null => ['n', 'u', 'l', 'l']
  | .bool true => ['t', 'r', 'u', 'e']
  | .bool false => ['f', 'a', 'l', 's', 'e']
  | .number n => n.literal
  | .string text => stringLiteral text
  | .array [] => ['[', ']']
  | .array (j :: rest) =>
    '[' :: newLine (level + 1) ++ prettyChars (level + 1) j ++ prettyItems (level + 1) rest
      ++ newLine level ++ [']']
  | .object [] => ['\x7b', '\x7d']
  | .object ((key, j) :: rest) =>
    '\x7b' :: newLine (level + 1) ++ stringLiteral key ++ [':', ' ']
      ++ prettyChars (level + 1) j
      ++ prettyMembers (level + 1) rest ++ newLine level ++ ['\x7d']
  | .unreadable => unreadableLiteral
termination_by structural j => j

/-- The items after the first. -/
def prettyItems (level : Nat) : List Json → List Char
  | [] => []
  | j :: rest => ',' :: newLine level ++ prettyChars level j ++ prettyItems level rest
termination_by structural j => j

/-- The members after the first. -/
def prettyMembers (level : Nat) : List (String × Json) → List Char
  | [] => []
  | (key, j) :: rest =>
    ',' :: newLine level ++ stringLiteral key ++ [':', ' '] ++ prettyChars level j
      ++ prettyMembers level rest
termination_by structural j => j

end

/-- A document with one part a line. -/
def pretty (j : Json) : String := String.ofList (prettyChars 0 j)

end SchemaPlan.Json
