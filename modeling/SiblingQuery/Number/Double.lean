/-!
# Binary doubles as exact data

A finite double is a sign, a mantissa and a binary exponent, kept in the one canonical form that
its format allows.  Every operation here is exact arithmetic on natural numbers followed by one
rounding, `Double.round`, so each result is determined by a quotient of naturals and nothing
depends on the machine's floating-point unit.

`Double.round` is the whole of the arithmetic: it maps a quotient to the nearest double, ties to
the even mantissa, and answers `none` where the quotient lies beyond the largest double.
-/

namespace SiblingQuery

/-- A finite double `± mantissa · 2 ^ exponent`.  In canonical form the mantissa is below `2 ^ 53`,
the exponent lies between `-1074` and `971`, and a mantissa below `2 ^ 52` has exponent `-1074`. -/
structure Double where
  negative : Bool
  mantissa : Nat
  exponent : Int
deriving DecidableEq, Repr, Inhabited

/-- A double as its 64 bits give it: finite, or one of the values that are not numbers to count
with. -/
inductive DoubleBits where
  | finite (value : Double)
  | infinite (negative : Bool)
  | nan
deriving DecidableEq, Repr, Inhabited

namespace Double

/-! ## Rounding -/

/-- The natural number nearest to `num / den`, a tie going to the even neighbour. -/
def roundHalfEven (num den : Nat) : Nat :=
  let quotient := num / den
  let rest := num % den
  if 2 * rest < den then quotient
  else if den < 2 * rest then quotient + 1
  else quotient + quotient % 2

/-- The binary order of `num / den`: the integer `k` with `2 ^ k ≤ num / den < 2 ^ (k + 1)`, for
positive arguments. -/
def binaryOrder (num den : Nat) : Int :=
  let guess : Int := (num.log2 : Int) - (den.log2 : Int)
  let reaches :=
    if 0 ≤ guess then decide (den * Nat.pow 2 guess.toNat ≤ num)
    else decide (den ≤ num * Nat.pow 2 (-guess).toNat)
  if reaches then guess else guess - 1

/-- The nearest multiple of `2 ^ exponent` to `num / den`, counted in units of `2 ^ exponent`. -/
def scaled (num den : Nat) (exponent : Int) : Nat :=
  if 0 ≤ exponent then roundHalfEven num (den * Nat.pow 2 exponent.toNat)
  else roundHalfEven (num * Nat.pow 2 (-exponent).toNat) den

/-- Zero with a sign. -/
def zero (negative : Bool) : Double := ⟨negative, 0, -1074⟩

/-- The double nearest to `± num / den`, ties to the even mantissa; `none` when it overflows. -/
def round (negative : Bool) (num den : Nat) : Option Double :=
  if num = 0 then some (zero negative)
  else
    let exponent : Int := max (binaryOrder num den - 52) (-1074)
    let mantissa := scaled num den exponent
    let result : Double :=
      if mantissa = Nat.pow 2 53 then ⟨negative, Nat.pow 2 52, exponent + 1⟩
      else ⟨negative, mantissa, exponent⟩
    if 971 < result.exponent then none else some result

/-- The double nearest to a natural number. -/
def ofNat? (n : Nat) : Option Double := round false n 1

/-! ## Bits -/

/-- Reads the 64 bits of a double: sign, eleven exponent bits, fifty-two fraction bits. -/
def ofBits (bits : Nat) : DoubleBits :=
  let negative := bits / Nat.pow 2 63 % 2 = 1
  let exponentField : Nat := bits / Nat.pow 2 52 % Nat.pow 2 11
  let fraction : Nat := bits % Nat.pow 2 52
  if exponentField = 2047 then
    if fraction = 0 then .infinite negative else .nan
  else if exponentField = 0 then .finite ⟨negative, fraction, -1074⟩
  else .finite ⟨negative, Nat.pow 2 52 + fraction, (exponentField : Int) - 1075⟩

/-! ## Arithmetic -/

/-- The numerator of the magnitude, over `denominator`. -/
def numerator (d : Double) : Nat := d.mantissa * Nat.pow 2 d.exponent.toNat

/-- The power of two that the magnitude is a quotient by. -/
def denominator (d : Double) : Nat := Nat.pow 2 (-d.exponent).toNat

/-- The rounded product; `none` when it overflows. -/
def mul (a b : Double) : Option Double :=
  round (a.negative ^^ b.negative) (a.numerator * b.numerator) (a.denominator * b.denominator)

/-- The rounded quotient; `none` when it overflows or the divisor is zero. -/
def div (a b : Double) : Option Double :=
  if b.mantissa = 0 then none
  else round (a.negative ^^ b.negative) (a.numerator * b.denominator) (a.denominator * b.numerator)

/-- The same magnitude with the opposite sign. -/
def neg (d : Double) : Double := { d with negative := !d.negative }

/-- The double nearest to a power of ten; `none` from `10 ^ 309` on. -/
def powerOfTen? (n : Nat) : Option Double := round false (Nat.pow 10 n) 1

/-! ## Comparison -/

/-- Equality of values: the two zeros are the same number. -/
def same (a b : Double) : Bool :=
  a = b || (a.mantissa = 0 && b.mantissa = 0)

/-- Below zero; a negative zero is not. -/
def isNegative (d : Double) : Bool := d.negative && d.mantissa ≠ 0

/-- The magnitude as a natural number, if it is whole. -/
def whole? (d : Double) : Option Nat :=
  if d.numerator % d.denominator = 0 then some (d.numerator / d.denominator) else none

end Double

end SiblingQuery
