set_option autoImplicit false

/-!
# The shortest decimal of a binary number

A binary floating point number `mantissa · 2 ^ exponent` stands for all reals
that round to it.  Its shortest decimal is the one with the fewest digits among
those, and of the decimals with that many digits the nearest; of two equally
near ones, the one with an even last digit.
-/

namespace SchemaPlan.Decimal

/-- A positive binary number, and whether the gap below it is half the gap
above, as it is at a power of two. -/
structure Binary where
  mantissa : Nat
  exponent : Int
  narrowBelow : Bool
  deriving DecidableEq, Repr

/-- A decimal of finitely many digits, `digits · 10 ^ exponent`. -/
structure Expansion where
  digits : Nat
  exponent : Int
  deriving DecidableEq, Repr, Inhabited

namespace Binary

/-- A quarter of the gap above the number, as a numerator and a denominator. -/
def quarter (b : Binary) : Nat × Nat :=
  let e := b.exponent - 2
  if 0 ≤ e then (Nat.pow 2 e.toNat, 1) else (1, Nat.pow 2 (-e).toNat)

/-- The place of the first digit: `10 ^ place` is the greatest power of ten that
is not above the number. -/
def place (b : Binary) : Int :=
  let q := b.quarter
  let scaled := 4 * b.mantissa * q.1 * Nat.pow 10 330 / q.2
  (Nat.toDigits 10 scaled).length - 1 - 330

/-- Whether a decimal rounds to the number.  The ends of the interval belong to
it when the mantissa is even. -/
def covers (b : Binary) (d : Expansion) : Bool :=
  let q := b.quarter
  -- both sides times the denominators
  let scaled := if 0 ≤ d.exponent then d.digits * Nat.pow 10 d.exponent.toNat * q.2
    else d.digits * q.2
  let unit := if 0 ≤ d.exponent then q.1 else q.1 * Nat.pow 10 (-d.exponent).toNat
  let low := (4 * b.mantissa - (if b.narrowBelow then 1 else 2)) * unit
  let high := (4 * b.mantissa + 2) * unit
  if b.mantissa % 2 == 0 then low ≤ scaled && scaled ≤ high else low < scaled && scaled < high

/-- The greatest decimal with a given last place that is not above the number,
and the order of twice what is left against one unit of that place. -/
def floorAt (b : Binary) (lastPlace : Int) : Nat × Ordering :=
  let q := b.quarter
  let num := if 0 ≤ lastPlace then 4 * b.mantissa * q.1
    else 4 * b.mantissa * q.1 * Nat.pow 10 (-lastPlace).toNat
  let den := if 0 ≤ lastPlace then q.2 * Nat.pow 10 lastPlace.toNat else q.2
  (num / den, compare (2 * (num % den)) den)

/-- The decimal of a given last place that stands for the number, if there is
one: the nearer of the number's two neighbours that rounds to it. -/
def candidate (b : Binary) (lastPlace : Int) : Option Expansion :=
  let (below, rest) := b.floorAt lastPlace
  let down : Expansion := ⟨below, lastPlace⟩
  let up : Expansion := ⟨below + 1, lastPlace⟩
  let upFirst := rest == .gt || (rest == .eq && below % 2 == 1)
  let order := if upFirst then [up, down] else [down, up]
  order.find? fun d => d.digits != 0 && b.covers d

/-- The shortest decimal of the number; seventeen digits always suffice. -/
def shortest (b : Binary) : Expansion :=
  ((List.range 17).findSome? fun (more : Nat) => b.candidate (b.place - (more : Int))).getD
    ⟨(b.floorAt (b.place - 16)).1, b.place - 16⟩

end Binary

/-- The binary number that the bits of a double stand for, without its sign;
nothing for zero, infinities and what is not a number. -/
def ofDoubleBits (bits : Nat) : Option Binary :=
  let fraction : Nat := bits % Nat.pow 2 52
  let biased : Nat := bits / Nat.pow 2 52 % Nat.pow 2 11
  if biased == 2047 then none
  else if biased == 0 then
    if fraction == 0 then none else some ⟨fraction, -1074, false⟩
  else some ⟨Nat.pow 2 52 + fraction, (biased : Int) - 1075, fraction == 0 && 1 < biased⟩

end SchemaPlan.Decimal
