import SchemaPlan.Decimal.Shortest

set_option autoImplicit false

/-!
# Doubles as text

The digits of a double are those of its shortest decimal.  How they are written,
with a point alone or with an exponent, is a `Style`.
-/

namespace SchemaPlan.Decimal

/-- How digits with a point are written.  The place of the point is counted from
the first digit: `0.25` has its point at place 0, `25.0` at place 2. -/
structure Style where
  /-- The first place from which on no exponent is needed. -/
  firstPlain : Int
  /-- The last place up to which no exponent is needed. -/
  lastPlain : Int
  deriving DecidableEq, Repr

namespace Style

/-- The style of messages: from `0.00001` up to sixteen digits before the point
without an exponent. -/
def message : Style := ⟨-4, 16⟩

/-- Zeros. -/
def zeros (n : Nat) : List Char := List.replicate n '0'

/-- Digits with a point among, before or behind them. -/
def plain (digits : List Char) (point : Int) : List Char :=
  if 0 < point then
    let fraction := digits.drop point.toNat
    digits.take point.toNat ++ zeros (point.toNat - digits.length) ++ ['.']
      ++ (if fraction.isEmpty then ['0'] else fraction)
  else ['0', '.'] ++ zeros (-point).toNat ++ digits

/-- Digits with the point behind the first and an exponent with its sign. -/
def scientific (digits : List Char) (point : Int) : List Char :=
  let exponent := point - 1
  digits.take 1 ++ (if digits.length ≤ 1 then [] else '.' :: digits.drop 1)
    ++ ['e', if exponent < 0 then '-' else '+'] ++ Nat.toDigits 10 exponent.natAbs

/-- A decimal as it is written: its digits without zeros at the end. -/
def write (style : Style) (d : Expansion) : List Char :=
  let all := Nat.toDigits 10 d.digits
  let digits := (all.reverse.dropWhile (· == '0')).reverse
  let point := all.length + d.exponent
  if style.firstPlain ≤ point && point ≤ style.lastPlain then plain digits point
  else scientific digits point

/-- A finite double as it is written; nought has a sign too. -/
def writeDouble (style : Style) (f : Float) : String :=
  let bits := f.toBits.toNat
  let unsigned :=
    match ofDoubleBits bits with
    | none => ['0', '.', '0']
    | some b => style.write b.shortest
  String.ofList (if bits / Nat.pow 2 63 == 1 then '-' :: unsigned else unsigned)

end Style

end SchemaPlan.Decimal
