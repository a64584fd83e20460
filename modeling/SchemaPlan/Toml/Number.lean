import SchemaPlan.Calendar
import SchemaPlan.Json.Parser
import SchemaPlan.Toml.Basic

set_option autoImplicit false

/-!
# The numbers and dates of a TOML document

Whole numbers of 64 bits in four bases, floats, and dates and times.  Digits may
be grouped by single underscores.
-/

namespace SchemaPlan.Toml

open Json (isDigit digitsValue)

/-! ## Digits -/

/-- Further digits, each perhaps behind one underscore. -/
def readMoreDigits (among : Char → Bool) : List Char → Option (List Char × List Char)
  | [] => some ([], [])
  | '_' :: c :: rest =>
    if among c then
      (readMoreDigits among rest).map fun found => (c :: found.1, found.2)
    else none
  | c :: rest =>
    if among c then (readMoreDigits among rest).map fun found => (c :: found.1, found.2)
    else if c = '_' then none
    else some ([], c :: rest)

/-- Digits, at least one. -/
def readDigits (among : Char → Bool) : List Char → Option (List Char × List Char)
  | [] => none
  | c :: rest =>
    if among c then
      (readMoreDigits among rest).map fun found => (c :: found.1, found.2)
    else none

/-- The digits of a decimal whole number: a zero alone, or none in front. -/
def readWhole : List Char → Option (List Char × List Char)
  | '0' :: rest => some (['0'], rest)
  | input => readDigits isDigit input

/-- A sign, and whether it is a minus. -/
def readSign : List Char → Bool × List Char
  | '-' :: rest => (true, rest)
  | '+' :: rest => (false, rest)
  | input => (false, input)

/-! ## Whole numbers -/

/-- The value of digits in a base. -/
def valueInBase (base : Nat) (digits : List Char) : Nat :=
  digits.foldl (fun n c => n * base + (Json.hexValue? c).getD 0) 0

/-- A whole number of a base other than ten, after its mark. -/
def readInBase (base : Nat) (input : List Char) : Option (Int × List Char) :=
  match readDigits (fun c => match Json.hexValue? c with
    | some v => v < base
    | none => false) input with
  | none => none
  | some (digits, rest) =>
    let value := valueInBase base digits
    if value < Nat.pow 2 63 then some (value, rest) else none

/-- A whole number. -/
def readInteger : List Char → Option (Int × List Char)
  | '0' :: 'x' :: rest => readInBase 16 rest
  | '0' :: 'o' :: rest => readInBase 8 rest
  | '0' :: 'b' :: rest => readInBase 2 rest
  | input =>
    let (negative, unsigned) := readSign input
    match readWhole unsigned with
    | none => none
    | some (digits, rest) =>
      let amount := digitsValue digits
      if negative then
        if amount ≤ Nat.pow 2 63 then some (-amount, rest) else none
      else if amount < Nat.pow 2 63 then some (amount, rest) else none

/-! ## Floats -/

/-- Whether a decimal is too great for a double: `digits · 10 ^ tens`. -/
def overflows (digits : Nat) (tens : Int) : Bool :=
  let places : Int := (Nat.toDigits 10 digits).length + tens
  if digits == 0 || places ≤ 308 then false
  else if 310 < places then true
  else
    let bound := Nat.pow 2 1024 - Nat.pow 2 970
    if 0 ≤ tens then bound ≤ digits * Nat.pow 10 tens.toNat
    else bound * Nat.pow 10 (-tens).toNat ≤ digits

/-- The fraction of a float: nothing, or a point and digits. -/
def readFraction : List Char → Option (List Char × List Char)
  | '.' :: rest => readDigits isDigit rest
  | input => some ([], input)

/-- The exponent of a float: nothing, or the letter, a sign and digits. -/
def readExponent : List Char → Option (Option Int × List Char)
  | [] => some (none, [])
  | c :: rest =>
    if c = 'e' || c = 'E' then
      let (negative, unsigned) := readSign rest
      (readDigits isDigit unsigned).map fun found =>
        let amount : Int := digitsValue found.1
        (some (if negative then -amount else amount), found.2)
    else some (none, c :: rest)

/-- What was taken from the front of an input. -/
def taken (input rest : List Char) : String :=
  String.ofList (input.take (input.length - rest.length))

/-- A float: a whole number with a fraction, an exponent or both, or one of the
two words. -/
def readFloat (input : List Char) : Option (String × List Char) :=
  let (negative, unsigned) := readSign input
  match unsigned with
  | 'i' :: 'n' :: 'f' :: rest => some (taken input rest, rest)
  | 'n' :: 'a' :: 'n' :: rest => some (taken input rest, rest)
  | _ =>
    match readWhole unsigned with
    | none => none
    | some (whole, rest) =>
      match readFraction rest with
      | none => none
      | some (fraction, rest) =>
        match readExponent rest with
        | none => none
        | some (exponent, rest) =>
          if fraction.isEmpty && exponent.isNone then none
          else if !negative
              && overflows (digitsValue (whole ++ fraction))
                (exponent.getD 0 - fraction.length) then none
          else some (taken input rest, rest)

/-! ## Dates and times -/

/-- A number of two digits within bounds. -/
def readTwo (low high : Nat) : List Char → Option (Nat × List Char)
  | a :: b :: rest =>
    let n := digitsValue [a, b]
    if isDigit a && isDigit b && low ≤ n && n ≤ high then some (n, rest) else none
  | _ => none

/-- A date of year, month and day. -/
def readDate : List Char → Option (List Char)
  | a :: b :: c :: d :: '-' :: rest =>
    if [a, b, c, d].all isDigit then
      match readTwo 1 12 rest with
      | some (month, '-' :: rest) =>
        match readTwo 1 (Calendar.daysInMonth (digitsValue [a, b, c, d]) month) rest with
        | some (_, rest) => some rest
        | none => none
      | _ => none
    else none
  | _ => none

/-- A time of hours, minutes, seconds and perhaps a fraction. -/
def readTime (input : List Char) : Option (List Char) :=
  match readTwo 0 23 input with
  | some (_, ':' :: rest) =>
    match readTwo 0 59 rest with
    | some (_, ':' :: rest) =>
      match readTwo 0 60 rest with
      | some (_, '.' :: rest) =>
        if (rest.takeWhile isDigit).isEmpty then none else some (rest.dropWhile isDigit)
      | some (_, rest) => some rest
      | none => none
    | _ => none
  | _ => none

/-- The offset of a time: nothing, the letter for none, or hours and minutes. -/
def readOffset : List Char → Option (List Char)
  | [] => some []
  | c :: rest =>
    if c = 'Z' || c = 'z' then some rest
    else if c = '+' || c = '-' then
      match readTwo 0 23 rest with
      | some (_, ':' :: rest) => (readTwo 0 59 rest).map (·.2)
      | _ => none
    else some (c :: rest)

/-- A date, a time, or a date with a time and perhaps an offset. -/
def readDateTime (input : List Char) : Option (String × List Char) :=
  match readDate input with
  | some rest =>
    match rest with
    | c :: later =>
      if c = 'T' || c = 't' || c = ' ' then
        match readTime later with
        | some afterTime => (readOffset afterTime).map fun rest => (taken input rest, rest)
        | none => if c = ' ' then some (taken input rest, rest) else none
      else some (taken input rest, rest)
    | [] => some (taken input rest, rest)
  | none => (readTime input).map fun rest => (taken input rest, rest)

/-- A number or a date. -/
def readNumber (input : List Char) : Option (Toml × List Char) :=
  match readDateTime input with
  | some (literal, rest) => some (.dateTime literal, rest)
  | none =>
    match readFloat input with
    | some (literal, rest) => some (.float literal, rest)
    | none => (readInteger input).map fun found => (.integer found.1, found.2)

end SchemaPlan.Toml
