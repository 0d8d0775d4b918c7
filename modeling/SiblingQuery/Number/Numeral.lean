import SiblingQuery.Number.Double

/-!
# Decimal numerals

A numeral is what is written: a sign, the digits before the point, the digits after it, and an
exponent.  Two readings of the same numeral as a double are kept apart here.

* `Numeral.nearest` is the double nearest to the number that is written, however many digits it
  has.  Only of an exponent that has reached 65536 it takes no more digits, which makes a
  difference to numerals with tens of thousands of digits (`Numeral.clipped`).
* `Numeral.gathered` is the reading of the JSON format's reader: it gathers digits into one
  unsigned 64-bit word until the next would not fit, and then scales by powers of ten in double
  arithmetic, so the result may differ from the nearest double in its last places.

Digits are characters `'0'` to `'9'`; the readers of numerals admit no other.
-/

namespace SiblingQuery

/-- A decimal numeral as written.  An absent exponent and an empty part are kept apart from zero,
because grammars differ on which parts may be missing. -/
structure Numeral where
  negative : Bool := false
  whole : List Char
  fraction : Option (List Char) := none
  exponent : Option (Bool × List Char) := none
deriving DecidableEq, Repr, Inhabited

/-- The largest unsigned 64-bit word. -/
def maxWord : Nat := 0xFFFFFFFFFFFFFFFF

/-- The magnitude of the least signed 64-bit integer. -/
def signedBound : Nat := 0x8000000000000000

/-- The value of a digit. -/
def digitValue (c : Char) : Nat := c.toNat - '0'.toNat

namespace Numeral

/-- The natural number that a run of digits denotes. -/
def natOfDigits (digits : List Char) : Nat := Nat.ofDigitChars 10 digits 0

/-- Written without fraction and exponent. -/
def isInteger (n : Numeral) : Bool := n.fraction.isNone && n.exponent.isNone

/-- The exponent as an integer, zero when absent. -/
def exponentValue (n : Numeral) : Int :=
  match n.exponent with
  | none => 0
  | some (negative, digits) => if negative then -natOfDigits digits else natOfDigits digits

/-! ## The nearest double -/

/-- The digits of an exponent that are taken, once others have come to `reached`: all of them, or
those up to the one with which the exponent reaches 65536. -/
def clipDigits (reached : Nat) : List Char → List Char
  | [] => []
  | c :: rest =>
    if reached < 0x10000 then c :: clipDigits (reached * 10 + digitValue c) rest else []

/-- The numeral that is rounded, where of an exponent that has reached 65536 no further digit
counts. -/
def clipped (n : Numeral) : Numeral :=
  { n with exponent := n.exponent.map fun (negative, digits) => (negative, clipDigits 0 digits) }

/-- The double nearest to the number written, with a clipped exponent; `none` when it overflows.  A
number below `10 ^ -330` is decided as zero and one from `10 ^ 310` on as overflow, without writing
the power of ten out. -/
def nearest (n : Numeral) : Option Double :=
  let fraction := n.fraction.getD []
  let digits := (n.whole ++ fraction).dropWhile (· = '0')
  let power := n.clipped.exponentValue - (fraction.length : Int)
  let significand := natOfDigits digits
  let order := power + (digits.length : Int)
  if significand = 0 ∨ order < -330 then some (Double.zero n.negative)
  else if 310 < order then none
  else if 0 ≤ power then Double.round n.negative (significand * Nat.pow 10 power.toNat) 1
  else Double.round n.negative significand (Nat.pow 10 (-power).toNat)

/-! ## Gathering digits into a word -/

/-- A word of gathered digits, and the power of ten that it still has to be scaled by. -/
structure Gathered where
  significand : Nat
  power : Int
deriving DecidableEq, Repr

/-- Gathers digits before the point: from the first that does not fit on, a digit only counts as
one more power of ten. -/
def gatherWhole : List Char → Gathered → Gathered
  | [], g => g
  | c :: rest, g =>
    let next := g.significand * 10 + digitValue c
    if maxWord < next then ⟨g.significand, g.power + 1 + (rest.length : Int)⟩
    else gatherWhole rest ⟨next, g.power⟩

/-- Gathers digits after the point: from the first that does not fit on, all are dropped. -/
def gatherFraction : List Char → Gathered → Gathered
  | [], g => g
  | c :: rest, g =>
    let next := g.significand * 10 + digitValue c
    if maxWord < next then g else gatherFraction rest ⟨next, g.power - 1⟩

/-- An integer brought into the signed 32-bit range. -/
def clampPower (n : Int) : Int := max (-0x80000000) (min 0x7FFFFFFF n)

/-- Divides by `10 ^ 308` the given number of times, stopping early at zero. -/
def divideDown : Nat → Double → Option Double
  | 0, d => some d
  | steps + 1, d =>
    if d.mantissa = 0 then some d
    else ((Double.powerOfTen? 308).bind d.div).bind (divideDown steps)

/-- Scales by a power of ten in double arithmetic: by one factor when a power of ten of that size
is a double; a smaller power than that takes divisions by `10 ^ 308` first.  `none` is overflow. -/
def scale (d : Double) (power : Int) : Option Double :=
  if 308 < power then
    if d.mantissa = 0 then some d else none
  else if 0 ≤ power then
    (Double.powerOfTen? power.toNat).bind d.mul
  else
    let down := (-power).toNat
    let steps := (down - 1) / 308
    (divideDown steps d).bind fun near =>
      (Double.powerOfTen? (down - 308 * steps)).bind near.div

/-- The double that the gathered digits of a numeral give; `none` when it overflows.  An exponent
beyond the signed 32-bit range decides alone, unless all gathered digits are zero. -/
def gathered (n : Numeral) : Option Double :=
  let g := gatherFraction (n.fraction.getD []) (gatherWhole n.whole ⟨0, 0⟩)
  let magnitude :=
    if 0x80000000 ≤ n.exponentValue.natAbs then
      if g.significand ≠ 0 ∧ 0 < n.exponentValue then none else some (Double.zero false)
    else
      (Double.ofNat? g.significand).bind (scale · (clampPower (g.power + n.exponentValue)))
  magnitude.map fun d => if n.negative then d.neg else d

end Numeral

end SiblingQuery
