import SiblingQuery.Json.Source
import SiblingQuery.Json.Value
import SiblingQuery.Number.Word
import SiblingQuery.Yaml.Token

/-!
# What a scalar stands for

Where nothing says what type a scalar has, its tag and its looks decide.  A plain scalar without a
tag may look like null, a truth value, an integer or a real number, and is a text otherwise; any
other scalar without a tag is a text.

Integers beyond the 64-bit words are refused as long as they fit 128 bits, and are real numbers
beyond that.  Digits after a leading zero are never a number.
-/

namespace SiblingQuery

namespace Yaml

namespace Scalar

/-! ## Looks -/

/-- Looks like null. -/
def isNull (text : String) : Bool :=
  text = "null" || text = "Null" || text = "NULL" || text = "~"

/-- Looks like a truth value. -/
def bool? (text : String) : Option Bool :=
  if text = "true" || text = "True" || text = "TRUE" then some true
  else if text = "false" || text = "False" || text = "FALSE" then some false
  else none

/-- The number that digits in a radix up to sixteen denote; at least one digit is needed. -/
def natInRadix? (radix : Nat) (digits : List Char) : Option Nat :=
  if digits = [] then none
  else
    digits.foldlM (fun n c =>
      match hexValue? c with
      | some d => if d < radix then some (n * radix + d) else none
      | none => none) 0

/-- A number up to a limit. -/
def natUpTo? (limit radix : Nat) (digits : List Char) : Option Nat :=
  (natInRadix? radix digits).filter (· ≤ limit)

/-- Digits after a leading zero, with a sign or none. -/
def hasLeadingZero (text : List Char) : Bool :=
  let unsigned := match text with
    | '-' :: rest | '+' :: rest => rest
    | _ => text
  match unsigned with
  | '0' :: c :: rest => (c :: rest).all Char.isDigit
  | _ => false

/-- The text without a plus sign. -/
def withoutPlus : List Char → List Char
  | '+' :: rest => rest
  | text => text

/-- Begins with a sign. -/
def isSigned : List Char → Bool
  | '+' :: _ | '-' :: _ => true
  | _ => false

/-- Digits after a mark of their radix, as in `0x1f`, `0o17` and `0b11`. -/
def marked? : List Char → Option (Nat × List Char)
  | '0' :: 'x' :: rest => some (16, rest)
  | '0' :: 'o' :: rest => some (8, rest)
  | '0' :: 'b' :: rest => some (2, rest)
  | _ => none

/-- A natural number up to a limit, decimal or with a mark of its radix. -/
def unsigned? (limit : Nat) (text : List Char) : Option Nat :=
  let body := withoutPlus text
  match marked? body with
  | some (radix, digits) => natUpTo? limit radix digits
  | none => if isSigned body || hasLeadingZero text then none else natUpTo? limit 10 body

/-- A number with a minus sign, down to the negative of a limit. -/
def negative? (limit : Nat) : List Char → Option Int
  | '-' :: body =>
    match marked? body with
    | some (radix, digits) => (natUpTo? limit radix digits).map fun n => -(n : Int)
    | none =>
      if hasLeadingZero body then none else (natUpTo? limit 10 body).map fun n => -(n : Int)
  | _ => none

/-- An unsigned 64-bit word. -/
def word? (text : String) : Option Nat := unsigned? maxWord text.toList

/-- What a text that looks like an integer denotes; inside, `none` is an integer that fits 128 bits
but no 64-bit word. -/
def int? (text : String) : Option (Option Int) :=
  match unsigned? maxWord text.toList, negative? signedBound text.toList with
  | some n, _ => some (some n)
  | none, some n => some (some n)
  | none, none =>
    if (unsigned? (Nat.pow 2 128 - 1) text.toList).isSome ||
        (negative? (Nat.pow 2 127) text.toList).isSome then
      some none
    else none

/-- Looks like an infinity or like no number. -/
def isSpecial (text : String) : Bool :=
  let body := String.ofList (withoutPlus text.toList)
  body = ".inf" || body = ".Inf" || body = ".INF" ||
    text = "-.inf" || text = "-.Inf" || text = "-.INF" ||
    text = ".nan" || text = ".NaN" || text = ".NAN"

/-- What a text that looks like a real number denotes.  Infinities and what is no number have no
JSON form but null. -/
def real? (text : String) : Option Json :=
  let body := withoutPlus text.toList
  if text.toList ≠ body && isSigned body then none
  else if isSpecial text then some .null
  else
    match Real.parse? body with
    | some (.finite d) => some (.num (.float d))
    | _ => none

/-! ## Resolution -/

/-- What a plain scalar without a tag stands for. -/
def ofPlain? (text : String) : Option Json :=
  if text = "" || isNull text then some .null
  else
    match bool? text with
    | some b => some (.bool b)
    | none =>
      match int? text with
      | some (some n) => some (.num (.int n))
      | some none => none
      | none =>
        if hasLeadingZero text.toList then some (.str text)
        else (real? text).or (some (.str text))

/-- The tags of the types that a text can be read as. -/
def typeTag (name : String) : Tag := Tag.ofString ("tag:yaml.org,2002:" ++ name)

/-- What a scalar without a type stands for. -/
def ofStyle? (style : Style) (text : String) : Option Json :=
  if style = .plain then ofPlain? text else some (.str text)

/-- What a scalar stands for; `none` when it is not what its tag says, or the tag is private to
the document.  A tag that begins as a private one does and is no text says nothing. -/
def resolve? (tag : Option Tag) (style : Style) (text : String) : Option Json :=
  match tag with
  | none => ofStyle? style text
  | some tag =>
    if tag.isPrivate then none
    else if tag.isLocal then ofStyle? style text
    else if tag = typeTag "bool" then (bool? text).map .bool
    else if tag = typeTag "int" then (int? text).join.map fun n => .num (.int n)
    else if tag = typeTag "float" then real? text
    else if tag = typeTag "null" then if isNull text then some .null else none
    else some (.str text)

end Scalar

end Yaml

end SiblingQuery
