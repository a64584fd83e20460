import SchemaPlan.Json.Parser

set_option autoImplicit false

/-!
# The texts of a TOML document

Strings of the four kinds, keys, blanks and comments.  A reader takes what it
knows from the front of the input and gives back the rest.
-/

namespace SchemaPlan.Toml

/-! ## Blanks and comments -/

/-- Blanks inside a line. -/
def isBlank (c : Char) : Bool := c = ' ' || c = '\t'

/-- Leave out blanks. -/
def skipBlanks (input : List Char) : List Char := input.dropWhile isBlank

/-- A character of a comment: anything but controls, except a tab. -/
def isPlain (c : Char) : Bool := c = '\t' || (32 ≤ c.toNat && c.toNat ≠ 127)

/-- Leave out a comment. -/
def skipComment : List Char → List Char
  | '#' :: rest => rest.dropWhile isPlain
  | input => input

/-- The end of a line: a line break or the end of the input. -/
def readLineEnd : List Char → Option (List Char)
  | [] => some []
  | '\n' :: rest => some rest
  | '\r' :: '\n' :: rest => some rest
  | _ => none

/-- What may stand behind an expression up to the end of its line. -/
def readRestOfLine (input : List Char) : Option (List Char) :=
  readLineEnd (skipComment (skipBlanks input))

/-- Leave out blanks, line breaks and comments; the flag says whether the input
starts inside a comment. -/
def skipLayout : Bool → List Char → List Char
  | _, [] => []
  | _, '\n' :: rest => skipLayout false rest
  | _, '\r' :: '\n' :: rest => skipLayout false rest
  | true, c :: rest => if isPlain c then skipLayout true rest else c :: rest
  | false, c :: rest =>
    if c = '#' then skipLayout true rest
    else if isBlank c then skipLayout false rest
    else c :: rest

/-! ## Strings -/

/-- The character with a code point, if there is one. -/
def scalar? (code : Nat) : Option Char :=
  if code < 0xD800 || (0xE000 ≤ code && code < 0x110000) then some (Char.ofNat code) else none

/-- The character behind a backslash and one letter. -/
def escaped? : Char → Option Char
  | 'b' => some '\x08'
  | 't' => some '\t'
  | 'n' => some '\n'
  | 'f' => some '\x0c'
  | 'r' => some '\r'
  | '"' => some '"'
  | '\\' => some '\\'
  | _ => none

/-- The character of eight digits in base sixteen. -/
def longScalar? (a b c d e f g h : Char) : Option Char :=
  match Json.hexUnit? a b c d, Json.hexUnit? e f g h with
  | some high, some low => scalar? (high * 0x10000 + low)
  | _, _ => none

/-- Put a character, if it is one, in front of what follows it. -/
def prepend (c : Option Char) (rest : Option (List Char × List Char)) :
    Option (List Char × List Char) :=
  match c, rest with
  | some c, some (text, rest) => some (c :: text, rest)
  | _, _ => none

/-- A string between double quotes, after the first. -/
def readBasic : List Char → Option (List Char × List Char)
  | [] => none
  | '"' :: rest => some ([], rest)
  | '\\' :: 'u' :: a :: b :: c :: d :: rest =>
    prepend ((Json.hexUnit? a b c d).bind scalar?) (readBasic rest)
  | '\\' :: 'U' :: a :: b :: c :: d :: e :: f :: g :: h :: rest =>
    prepend (longScalar? a b c d e f g h) (readBasic rest)
  | '\\' :: e :: rest => prepend (escaped? e) (readBasic rest)
  | c :: rest => if isPlain c && c ≠ '\\' then prepend (some c) (readBasic rest) else none

/-- A string between single quotes, after the first. -/
def readLiteral : List Char → Option (List Char × List Char)
  | [] => none
  | c :: rest =>
    if c = '\x27' then some ([], rest)
    else if isPlain c then prepend (some c) (readLiteral rest)
    else none

/-- The closing quotes of a string of several lines: three, before which up to
two may belong to the text. -/
def readClosing (quote : Char) (input : List Char) : Option (List Char × List Char) :=
  let count := (input.takeWhile (· = quote)).length
  if 3 ≤ count && count ≤ 5 then
    some (List.replicate (count - 3) quote, input.drop count)
  else none

/-- Whether the line ends after blanks. -/
def endsLine (input : List Char) : Bool :=
  match skipBlanks input with
  | '\n' :: _ => true
  | '\r' :: '\n' :: _ => true
  | _ => false

/-- A string of several lines between double quotes; `trim` says whether blanks
and line breaks are left out, as they are behind a backslash that ends a line. -/
def readLongBasic : Bool → List Char → Option (List Char × List Char)
  | _, [] => none
  | trim, '\r' :: '\n' :: rest =>
    if trim then readLongBasic true rest else prepend (some '\n') (readLongBasic false rest)
  | trim, '\n' :: rest =>
    if trim then readLongBasic true rest else prepend (some '\n') (readLongBasic false rest)
  | _, '"' :: '"' :: '"' :: rest => readClosing '"' ('"' :: '"' :: '"' :: rest)
  | _, '\\' :: 'u' :: a :: b :: c :: d :: rest =>
    prepend ((Json.hexUnit? a b c d).bind scalar?) (readLongBasic false rest)
  | _, '\\' :: 'U' :: a :: b :: c :: d :: e :: f :: g :: h :: rest =>
    prepend (longScalar? a b c d e f g h) (readLongBasic false rest)
  | _, '\\' :: e :: rest =>
    if endsLine (e :: rest) then readLongBasic true (e :: rest)
    else prepend (escaped? e) (readLongBasic false rest)
  | trim, c :: rest =>
    if trim && isBlank c then readLongBasic true rest
    else if isPlain c && c ≠ '\\' then prepend (some c) (readLongBasic false rest)
    else none

/-- A string of several lines between single quotes. -/
def readLongLiteral : List Char → Option (List Char × List Char)
  | [] => none
  | '\r' :: '\n' :: rest => prepend (some '\n') (readLongLiteral rest)
  | '\n' :: rest => prepend (some '\n') (readLongLiteral rest)
  | '\x27' :: '\x27' :: '\x27' :: rest =>
    readClosing '\x27' ('\x27' :: '\x27' :: '\x27' :: rest)
  | c :: rest => if isPlain c then prepend (some c) (readLongLiteral rest) else none

/-- A line break right behind the opening of a string of several lines is no
part of it. -/
def skipFirstBreak : List Char → List Char
  | '\n' :: rest => rest
  | '\r' :: '\n' :: rest => rest
  | input => input

/-- A string of any kind. -/
def readString : List Char → Option (List Char × List Char)
  | '"' :: '"' :: '"' :: rest => readLongBasic false (skipFirstBreak rest)
  | '"' :: rest => readBasic rest
  | '\x27' :: '\x27' :: '\x27' :: rest => readLongLiteral (skipFirstBreak rest)
  | '\x27' :: rest => readLiteral rest
  | _ => none

/-! ## Keys -/

/-- A character of a key without quotes. -/
def isBare (c : Char) : Bool := c.isAlphanum || c = '_' || c = '-'

/-- One part of a key. -/
def readKeyPart : List Char → Option (String × List Char)
  | '"' :: rest => (readBasic rest).map fun found => (String.ofList found.1, found.2)
  | '\x27' :: rest => (readLiteral rest).map fun found => (String.ofList found.1, found.2)
  | input =>
    match input.takeWhile isBare with
    | [] => none
    | part => some (String.ofList part, input.dropWhile isBare)

/-- The parts of a key, with blanks around each. -/
def readKeyParts : Nat → List Char → Option (List String × List Char)
  | 0, _ => none
  | fuel + 1, input =>
    match readKeyPart (skipBlanks input) with
    | none => none
    | some (part, rest) =>
      match skipBlanks rest with
      | '.' :: rest => (readKeyParts fuel rest).map fun found => (part :: found.1, found.2)
      | rest => some ([part], rest)

/-- How many levels arrays and tables may have, one more than is allowed. -/
def levelLimit : Nat := 80

/-- A key: the steps to its last part, that part, and what follows. -/
def readKey (input : List Char) : Option (List String × String × List Char) :=
  match readKeyParts (input.length + 1) input with
  | none => none
  | some (parts, rest) =>
    if parts.length < levelLimit then
      parts.getLast?.map fun last => (parts.dropLast, last, rest)
    else none

end SchemaPlan.Toml
