import SchemaPlan.Json.Basic

set_option autoImplicit false

/-!
# What a number denotes

A whole number of 64 bits, unsigned or signed, is read as it is.  Any other
literal is read as a double: the leading digits that fit into 64 bits, times or
divided by a power of ten, in steps where one power of a double is not enough.
A literal beyond the range of doubles denotes nothing.
-/

namespace SchemaPlan.Json

/-- A number as it is read. -/
inductive Numeric
  | natural (n : Nat)
  | negative (amount : Nat)
  | floating (value : Float)
  | outOfRange

namespace Numeric

/-- The bound of whole numbers without a sign. -/
def naturalBound : Nat := Nat.pow 2 64

/-- The greatest amount of a whole number with a minus. -/
def negativeLimit : Nat := Nat.pow 2 63

end Numeric

/-- Digits taken into 64 bits, and how many tens they are to be multiplied by. -/
structure Significand where
  value : Nat := 0
  tens : Int := 0
  deriving DecidableEq, Repr

namespace Significand

/-- Take digits of the whole part: once one does not fit, the rest only count. -/
def takeWhole (s : Significand) : List Nat → Significand
  | [] => s
  | d :: rest =>
    if s.value * 10 + d < Numeric.naturalBound then
      takeWhole { s with value := s.value * 10 + d } rest
    else { s with tens := s.tens + (rest.length + 1) }

/-- Take digits of the fraction: once one does not fit, the rest is left out. -/
def takeFraction (s : Significand) : List Nat → Significand
  | [] => s
  | d :: rest =>
    if s.value * 10 + d < Numeric.naturalBound then
      takeFraction ⟨s.value * 10 + d, s.tens - 1⟩ rest
    else s

/-- The greatest power of ten that is a double. -/
def greatestPower : Nat := 308

/-- Multiply by a power of ten.  A smaller power than a double can hold is taken
in steps, of which `steps` are left; by then nothing but nought remains. -/
def scale : Nat → Float → Int → Option Float
  | steps, f, tens =>
    if tens.natAbs ≤ greatestPower then
      let power := Float.ofScientific 1 false tens.natAbs
      let scaled := if 0 ≤ tens then f * power else f / power
      if scaled.isInf then none else some scaled
    else if f == 0.0 then some f
    else if 0 ≤ tens then none
    else
      match steps with
      | 0 => some 0.0
      | steps + 1 => scale steps (f / 1e308) (tens + greatestPower)

end Significand

namespace Number

/-- The double that a literal denotes, without its sign. -/
def magnitude? (n : Number) : Option Float :=
  let digits := (Nat.toDigits 10 n.whole).map fun c => c.toNat - 48
  let s := (Significand.takeWhole {} digits).takeFraction n.fraction
  Significand.scale 4 (UInt64.ofNat s.value).toFloat (s.tens + n.exponent.getD 0)

/-- A literal read as a double. -/
def asDouble (n : Number) : Numeric :=
  match n.magnitude? with
  | some f => .floating (if n.negative then -f else f)
  | none => .outOfRange

/-- Whether a literal has neither a fraction nor an exponent. -/
def isWhole (n : Number) : Bool := n.fraction.isEmpty && n.exponent.isNone

/-- A literal as it is read.  Minus nought is a double. -/
def reading (n : Number) : Numeric :=
  if n.isWhole && !n.negative && n.whole < Numeric.naturalBound then .natural n.whole
  else if n.isWhole && n.negative && n.whole != 0 && n.whole ≤ Numeric.negativeLimit then
    .negative n.whole
  else n.asDouble

/-- Whether a literal denotes a number. -/
def inRange (n : Number) : Bool :=
  match n.reading with
  | .outOfRange => false
  | _ => true

theorem reading_ofNat {n : Nat} (h : n < Numeric.naturalBound) :
    reading ⟨false, n, [], none⟩ = .natural n := by
  simp [reading, isWhole, h]

end Number

end SchemaPlan.Json
