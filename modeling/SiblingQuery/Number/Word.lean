import SiblingQuery.Number.Numeral

/-!
# Numbers given as text

Three readings of a text as a number, from the strictest to the widest.

* `Word.parse` reads an unsigned 64-bit word: an optional plus sign and digits.
* `Word.parseSigned?` reads a signed 64-bit integer: an optional sign and digits.
* `Real.parse?` reads a real number: an optional sign, then `inf`, `infinity` or `nan` in any case,
  or digits with an optional point and an optional exponent.

None of them skips blanks.
-/

namespace SiblingQuery

/-- Why a text is not an unsigned 64-bit word. -/
inductive WordError where
  | empty
  | invalidDigit
  | tooLarge
deriving DecidableEq, Repr, Inhabited

/-- What is said about a text that is not a word. -/
def WordError.message : WordError → String
  | .empty => "cannot parse integer from empty string"
  | .invalidDigit => "invalid digit found in string"
  | .tooLarge => "number too large to fit in target type"

namespace Word

/-- The next word, where the largest is its own successor. -/
def next (n : Nat) : Nat := min (n + 1) maxWord

/-- Reads digits into a number that may not pass `limit`.  Of a character that is no digit and a
number that has grown too large, the one that is met first counts. -/
def readDigits (limit : Nat) : List Char → Nat → Except WordError Nat
  | [], n => .ok n
  | c :: rest, n =>
    if !c.isDigit then .error .invalidDigit
    else if limit < n * 10 + digitValue c then .error .tooLarge
    else readDigits limit rest (n * 10 + digitValue c)

/-- Reads an unsigned 64-bit word. -/
def parse : List Char → Except WordError Nat
  | [] => .error .empty
  | ['+'] => .error .invalidDigit
  | '+' :: digits => readDigits maxWord digits 0
  | digits => readDigits maxWord digits 0

/-- Reads a signed 64-bit integer. -/
def parseSigned? : List Char → Option Int
  | [] | ['+'] | ['-'] => none
  | '-' :: digits => (readDigits signedBound digits 0).toOption.map fun n => -(n : Int)
  | '+' :: digits => (readDigits (signedBound - 1) digits 0).toOption.map fun n => (n : Int)
  | digits => (readDigits (signedBound - 1) digits 0).toOption.map fun n => (n : Int)

end Word

namespace Real

/-- An exponent: `e` or `E`, an optional sign, and at least one digit, or nothing at all. -/
def exponent? : List Char → Option (Option (Bool × List Char))
  | [] => some none
  | c :: rest =>
    if c = 'e' ∨ c = 'E' then
      let (negative, digits) :=
        match rest with
        | '-' :: digits => (true, digits)
        | '+' :: digits => (false, digits)
        | digits => (false, digits)
      if digits ≠ [] ∧ digits.all Char.isDigit then some (some (negative, digits)) else none
    else none

/-- A decimal numeral without its sign: digits with an optional point, at least one digit in all,
and an optional exponent. -/
def numeral? (negative : Bool) (text : List Char) : Option Numeral :=
  let whole := text.takeWhile Char.isDigit
  match text.dropWhile Char.isDigit with
  | '.' :: rest =>
    let fraction := rest.takeWhile Char.isDigit
    if whole = [] ∧ fraction = [] then none
    else
      (exponent? (rest.dropWhile Char.isDigit)).map fun exponent =>
        ⟨negative, whole, some fraction, exponent⟩
  | rest =>
    if whole = [] then none
    else (exponent? rest).map fun exponent => ⟨negative, whole, none, exponent⟩

/-- A number without its sign. -/
def unsigned? (negative : Bool) (text : List Char) : Option DoubleBits :=
  let word := String.ofList (text.map Char.toLower)
  if word = "inf" ∨ word = "infinity" then some (.infinite negative)
  else if word = "nan" then some .nan
  else
    (numeral? negative text).map fun numeral =>
      match numeral.nearest with
      | some d => .finite d
      | none => .infinite negative

/-- Reads a real number as the nearest double. -/
def parse? : List Char → Option DoubleBits
  | '-' :: rest => unsigned? true rest
  | '+' :: rest => unsigned? false rest
  | text => unsigned? false text

end Real

end SiblingQuery
