set_option autoImplicit false

/-!
# Calendar

Moments are seconds since the start of 1970, negative ones before it; days are
those of the Gregorian calendar, carried on backwards before it was in use.
-/

namespace SchemaPlan.Calendar

/-- Whether a year has a day more. -/
def isLeapYear (year : Int) : Bool :=
  year % 4 == 0 && (year % 100 != 0 || year % 400 == 0)

/-- The number of days of a month, from 1 to 12. -/
def daysInMonth (year : Int) (month : Nat) : Nat :=
  if month = 2 then (if isLeapYear year then 29 else 28)
  else if month = 4 || month = 6 || month = 9 || month = 11 then 30
  else 31

/-- A day of the calendar. -/
structure Date where
  year : Int
  month : Nat
  day : Nat
  deriving DecidableEq, Repr, Inhabited

/-- A moment by date and time of day. -/
structure DateTime where
  date : Date
  hour : Nat
  minute : Nat
  second : Nat
  deriving DecidableEq, Repr, Inhabited

/-- The days of four hundred years, after which the calendar repeats. -/
def daysPerEra : Nat := 146097

/-- The date of a day counted from the start of 1970.  Counting starts on the
first of March, so that the day more of a leap year is the last of its year. -/
def dateOfDay (day : Int) : Date :=
  let shifted := day + 719468
  let era := shifted.fdiv daysPerEra
  let dayOfEra := (shifted.fmod daysPerEra).toNat
  let yearOfEra := (dayOfEra - dayOfEra / 1460 + dayOfEra / 36524 - dayOfEra / 146096) / 365
  let dayOfYear := dayOfEra - (365 * yearOfEra + yearOfEra / 4 - yearOfEra / 100)
  let monthFromMarch := (5 * dayOfYear + 2) / 153
  let month := if monthFromMarch < 10 then monthFromMarch + 3 else monthFromMarch - 9
  let year : Int := yearOfEra + era * 400 + (if month ≤ 2 then 1 else 0)
  ⟨year, month, dayOfYear - (153 * monthFromMarch + 2) / 5 + 1⟩

/-- The date and time of a moment. -/
def ofSeconds (seconds : Int) : DateTime :=
  let rest := (seconds.fmod 86400).toNat
  ⟨dateOfDay (seconds.fdiv 86400), rest / 3600, rest / 60 % 60, rest % 60⟩

/-! ## Stamps -/

/-- The digits of a number, filled up with zeros in front. -/
def padded (width n : Nat) : List Char :=
  let digits := Nat.toDigits 10 n
  List.replicate (width - digits.length) '0' ++ digits

/-- A year in four digits; one with another number of digits, or before the year
nought, has a sign in front. -/
def yearText (year : Int) : List Char :=
  if 0 ≤ year && year ≤ 9999 then padded 4 year.toNat
  else (if year < 0 then '-' else '+') :: padded 4 year.natAbs

/-- A moment as one row of digits, from the year down to the second. -/
def stamp (seconds : Int) : String :=
  let t := ofSeconds seconds
  String.ofList (yearText t.date.year ++ padded 2 t.date.month ++ padded 2 t.date.day
    ++ padded 2 t.hour ++ padded 2 t.minute ++ padded 2 t.second)

end SchemaPlan.Calendar
