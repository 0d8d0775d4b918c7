import SiblingQuery.Number.Numeral
import SiblingQuery.Toml.Quoted
import SiblingQuery.Toml.Value

/-!
# Scalars of TOML

Strings, numbers, booleans, dates and times, each read from the front of a text.

* Digits may have underscores between them, and a decimal number does not begin with a zero that
  it could do without.
* An integer fits a signed 64-bit word.  It may be written to the base 16, 8 or 2, then without a
  sign.
* A float is the nearest double.  One that is too large is refused, one that is too small is
  negative infinity.
* A date is a day that the calendar has; a time runs to the end of a leap second.
-/

namespace SiblingQuery

namespace Toml

/-! ## Digits -/

/-- More digits, each with an underscore before it or none. -/
def moreDigits? (isDigit : Char → Bool) : List Char → Option (List Char × List Char)
  | [] => some ([], [])
  | ['_'] => none
  | '_' :: c :: rest =>
    if isDigit c then push? (some c) (moreDigits? isDigit rest) else none
  | c :: rest =>
    if isDigit c then push? (some c) (moreDigits? isDigit rest) else some ([], c :: rest)

/-- At least one digit. -/
def digits? (isDigit : Char → Bool) : List Char → Option (List Char × List Char)
  | [] => none
  | c :: rest => if isDigit c then push? (some c) (moreDigits? isDigit rest) else none

/-! ## Integers -/

/-- An integer, if it fits. -/
def integer? (value : Int) : Option Toml :=
  if -(signedBound : Int) ≤ value ∧ value < signedBound then some (.integer value) else none

/-- An integer to a base, after what announces the base. -/
def based? (base : Nat) (text : List Char) : Option (Toml × List Char) :=
  let isDigit (c : Char) : Bool :=
    match hexValue? c with
    | some n => n < base
    | none => false
  match digits? isDigit text with
  | none => none
  | some (run, after) =>
    let value := run.foldl (fun n c => n * base + (hexValue? c).getD 0) 0
    (integer? value).map (·, after)

/-! ## Decimal numbers -/

/-- The digits before a point: a zero alone, or digits that do not begin with zero. -/
def whole? : List Char → Option (List Char × List Char)
  | '0' :: rest => some (['0'], rest)
  | text => digits? Char.isDigit text

/-- The digits after a point, if a point comes next. -/
def fraction? : List Char → Option (Option (List Char) × List Char)
  | '.' :: rest => (digits? Char.isDigit rest).map fun (run, after) => (some run, after)
  | text => some (none, text)

/-- An optional sign: whether it is a minus sign, and what follows it. -/
def sign : List Char → Bool × List Char
  | '-' :: rest => (true, rest)
  | '+' :: rest => (false, rest)
  | text => (false, text)

/-- The exponent, if one comes next. -/
def exponent? : List Char → Option (Option (Bool × List Char) × List Char)
  | [] => some (none, [])
  | c :: rest =>
    if c = 'e' ∨ c = 'E' then
      let (negative, rest) := sign rest
      (digits? Char.isDigit rest).map fun (run, after) => (some (negative, run), after)
    else some (none, c :: rest)

/-- The value of a decimal numeral: an integer if it is written as one. -/
def ofNumeral? (numeral : Numeral) : Option Toml :=
  if numeral.isInteger then
    let magnitude : Int := Numeral.natOfDigits numeral.whole
    integer? (if numeral.negative then -magnitude else magnitude)
  else
    match numeral.nearest with
    | some d => some (.float (.finite d))
    | none => if numeral.negative then some (.float (.infinite true)) else none

/-- A number without its sign. -/
def unsigned? (negative : Bool) : List Char → Option (Toml × List Char)
  | 'i' :: 'n' :: 'f' :: rest => some (.float (.infinite negative), rest)
  | 'n' :: 'a' :: 'n' :: rest => some (.float .nan, rest)
  | text =>
    match whole? text with
    | none => none
    | some (whole, rest) =>
      match fraction? rest with
      | none => none
      | some (fraction, rest) =>
        match exponent? rest with
        | none => none
        | some (exponent, rest) =>
          (ofNumeral? ⟨negative, whole, fraction, exponent⟩).map (·, rest)

/-- A number. -/
def number? : List Char → Option (Toml × List Char)
  | '0' :: 'x' :: rest => based? 16 rest
  | '0' :: 'o' :: rest => based? 8 rest
  | '0' :: 'b' :: rest => based? 2 rest
  | text => let (negative, rest) := sign text; unsigned? negative rest

/-! ## Dates and times -/

/-- A number of two digits between two bounds. -/
def pair? (low high : Nat) : List Char → Option (Nat × List Char)
  | a :: b :: rest =>
    let n := digitValue a * 10 + digitValue b
    if a.isDigit && b.isDigit && low ≤ n && n ≤ high then some (n, rest) else none
  | _ => none

/-- What follows a certain character. -/
def after? (c : Char) : List Char → Option (List Char)
  | d :: rest => if d = c then some rest else none
  | [] => none

/-- How many days a month of a year has. -/
def daysIn (year month : Nat) : Nat :=
  if month = 2 then
    if year % 4 = 0 ∧ (year % 100 ≠ 0 ∨ year % 400 = 0) then 29 else 28
  else if month = 4 ∨ month = 6 ∨ month = 9 ∨ month = 11 then 30
  else 31

/-- What follows a date. -/
def afterDate? (text : List Char) : Option (List Char) := do
  let (century, rest) ← pair? 0 99 text
  let (year, rest) ← pair? 0 99 rest
  let (month, rest) ← pair? 1 12 (← after? '-' rest)
  let (_, rest) ← pair? 1 (daysIn (century * 100 + year) month) (← after? '-' rest)
  return rest

/-- What follows a time of day. -/
def afterTime? (text : List Char) : Option (List Char) := do
  let (_, rest) ← pair? 0 23 text
  let (_, rest) ← pair? 0 59 (← after? ':' rest)
  let (_, rest) ← pair? 0 60 (← after? ':' rest)
  match rest with
  | '.' :: fraction =>
    let after := fraction.dropWhile Char.isDigit
    return if after.length < fraction.length then after else rest
  | _ => return rest

/-- What follows an offset from universal time. -/
def afterOffset? : List Char → Option (List Char)
  | 'Z' :: rest => some rest
  | 'z' :: rest => some rest
  | c :: rest =>
    if c = '+' ∨ c = '-' then do
      let (_, rest) ← pair? 0 23 rest
      let (_, rest) ← pair? 0 59 (← after? ':' rest)
      return rest
    else none
  | [] => none

/-- What follows the time of day and the offset that a date may have, after a `T` or a space. -/
def skipTimeOfDay : List Char → List Char
  | c :: rest =>
    if c = 'T' ∨ c = 't' ∨ c = ' ' then
      match afterTime? rest with
      | some rest => (afterOffset? rest).getD rest
      | none => c :: rest
    else c :: rest
  | [] => []

/-- What follows a date, a time of day, or both. -/
def afterDateTime? (text : List Char) : Option (List Char) :=
  match afterDate? text with
  | some rest => some (skipTimeOfDay rest)
  | none => afterTime? text

/-! ## Scalars -/

/-- A date or time, or else a number. -/
def dateTimeOrNumber? (text : List Char) : Option (Toml × List Char) :=
  match afterDateTime? text with
  | some rest =>
    some (.dateTime (String.ofList (text.take (text.length - rest.length))), rest)
  | none => number? text

/-- A scalar, and what follows it. -/
def scalar? : List Char → Option (Toml × List Char)
  | 't' :: 'r' :: 'u' :: 'e' :: rest => some (.bool true, rest)
  | 'f' :: 'a' :: 'l' :: 's' :: 'e' :: rest => some (.bool false, rest)
  | text =>
    match text.head? with
    | some '"' | some '\'' =>
      (string? text).map fun (text, after) => (.string (String.ofList text), after)
    | _ => dateTimeOrNumber? text

end Toml

end SiblingQuery
