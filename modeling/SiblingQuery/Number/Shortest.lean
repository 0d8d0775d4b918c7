import SiblingQuery.Number.Double

/-!
# The shortest decimal that reads back

Many decimals round to one double.  `Double.shortest` picks the one with the fewest digits, and
among those the one nearest to the exact value, an exact tie going to the even last digit.  The
search runs over decimal grids from one digit to seventeen and tests only the two neighbours of
the value on each grid, in exact arithmetic.

`DoubleNotation` holds what a text format decides beyond the digits: how an exponent is spelled.
-/

namespace SiblingQuery

/-- The decimal `digits · 10 ^ exponent`. -/
structure Decimal where
  digits : Nat
  exponent : Int
deriving DecidableEq, Repr, Inhabited

namespace Decimal

/-- The same number without trailing zeros in its digits, looking at no more than `fuel` of
them. -/
def trimZeros : Nat → Decimal → Decimal
  | 0, d => d
  | fuel + 1, d =>
    if d.digits ≠ 0 ∧ d.digits % 10 = 0 then trimZeros fuel ⟨d.digits / 10, d.exponent + 1⟩
    else d

end Decimal

namespace Double

/-! ## The interval of a double, against a decimal grid

All comparisons are made between `candidate · gridScale` and `quarters · unitScale`, where the
interval's centre and ends are counted in quarters of the double's last place. -/

/-- What one step of the decimal grid `10 ^ place` weighs. -/
def gridScale (d : Double) (place : Int) : Nat :=
  Nat.pow 10 place.toNat * Nat.pow 2 (2 - d.exponent).toNat

/-- What a quarter of the last binary place weighs. -/
def unitScale (d : Double) (place : Int) : Nat :=
  Nat.pow 2 (d.exponent - 2).toNat * Nat.pow 10 (-place).toNat

/-- The lower end of the interval, in quarters: below a power of two the doubles are twice as
dense. -/
def lowerQuarters (d : Double) : Nat :=
  if d.mantissa = Nat.pow 2 52 ∧ -1074 < d.exponent then 4 * d.mantissa - 1 else 4 * d.mantissa - 2

/-- The upper end of the interval, in quarters. -/
def upperQuarters (d : Double) : Nat := 4 * d.mantissa + 2

/-- Whether `candidate · 10 ^ place` rounds to the double; the ends of the interval do exactly
when the mantissa is even. -/
def readsBack (d : Double) (place : Int) (candidate : Nat) : Bool :=
  let point := candidate * d.gridScale place
  let lower := d.lowerQuarters * d.unitScale place
  let upper := d.upperQuarters * d.unitScale place
  if d.mantissa % 2 = 0 then lower ≤ point && point ≤ upper else lower < point && point < upper

/-- The better of the value's two neighbours on the grid `10 ^ place`, if one reads back. -/
def neighbour? (d : Double) (place : Int) : Option Nat :=
  let exact := 4 * d.mantissa * d.unitScale place
  let step := d.gridScale place
  let below := exact / step
  match d.readsBack place below, d.readsBack place (below + 1) with
  | true, true =>
    let rest := exact % step
    if 2 * rest < step then some below
    else if step < 2 * rest then some (below + 1)
    else some (below + below % 2)
  | true, false => some below
  | false, true => some (below + 1)
  | false, false => none

/-- The number of decimal digits of the magnitude before the point; for a magnitude below one,
minus the number of zeros that follow the point. -/
def decimalOrder (d : Double) : Int :=
  let scaledUp := d.numerator * Nat.pow 10 400 / d.denominator
  ((Nat.toDigits 10 scaledUp).length : Int) - 400

/-- The first hit on the grids with `count`, `count + 1`, … digits, `fuel` grids in all. -/
def searchGrids (d : Double) (order : Int) : Nat → Nat → Option Decimal
  | 0, _ => none
  | fuel + 1, count =>
    let place := order - (count : Int)
    match d.neighbour? place with
    | some digits => some ⟨digits, place⟩
    | none => searchGrids d order fuel (count + 1)

/-- The shortest decimal that reads back as the magnitude, without trailing zeros. -/
def shortest (d : Double) : Decimal :=
  match d.searchGrids d.decimalOrder 17 1 with
  | some decimal => decimal.trimZeros 17
  | none => ⟨0, 0⟩

end Double

/-! ## Notation -/

/-- How a text format spells a double beyond its digits. -/
structure DoubleNotation where
  /-- What stands between `e` and the digits of an exponent that is not negative. -/
  exponentPlus : List Char

namespace DoubleNotation

/-- Digits with the point after `order` of them, and at least one digit on either side. -/
def positional (digits : List Char) (order : Int) : List Char :=
  if order ≤ 0 then '0' :: '.' :: (List.replicate (-order).toNat '0' ++ digits)
  else
    let whole := order.toNat
    if whole < digits.length then digits.take whole ++ '.' :: digits.drop whole
    else digits ++ List.replicate (whole - digits.length) '0' ++ ['.', '0']

/-- One digit, the others after a point, and the exponent. -/
def scientific (notate : DoubleNotation) (digits : List Char) (order : Int) : List Char :=
  let mantissa :=
    match digits with
    | first :: second :: rest => first :: '.' :: second :: rest
    | short => short
  let power := order - 1
  let sign := if power < 0 then ['-'] else notate.exponentPlus
  mantissa ++ 'e' :: sign ++ Nat.toDigits 10 power.natAbs

/-- The text of a double: positional from `0.00001` up to but not including `10 ^ 16`, scientific
outside, with the fewest digits that read back. -/
def write (notate : DoubleNotation) (d : Double) : List Char :=
  let sign := if d.negative then ['-'] else []
  if d.mantissa = 0 then sign ++ ['0', '.', '0']
  else
    let decimal := d.shortest
    let digits := Nat.toDigits 10 decimal.digits
    let order := decimal.exponent + (digits.length : Int)
    let body :=
      if -4 ≤ order ∧ order ≤ 16 then positional digits order else notate.scientific digits order
    sign ++ body

end DoubleNotation

end SiblingQuery
