/-!
# Quoted strings of JSON

The body of a JSON string is read in two steps.  `Quoted.read` cuts it into units up to the
closing quote: a unit is a character, or a 16-bit code written `\\uXXXX`.  `Quoted.text?` then joins
the units into text, which fails exactly when a surrogate code stands without its partner.  The
two steps are apart because a reader that skips a value only needs the first to succeed.

`Quoted.write` is the printer: it escapes the quote, the backslash and the control characters
below `U+0020`, and nothing else.
-/

namespace SiblingQuery

/-- One unit of a quoted string. -/
inductive Quoted.Unit where
  | char (c : Char)
  | code (n : Nat)
deriving DecidableEq, Repr, Inhabited

/-- A string as written between quotes. -/
abbrev Quoted := List Quoted.Unit

/-- The value of a hexadecimal digit of either case. -/
def hexValue? (c : Char) : Option Nat :=
  if '0' ≤ c ∧ c ≤ '9' then some (c.toNat - 48)
  else if 'a' ≤ c ∧ c ≤ 'f' then some (c.toNat - 87)
  else if 'A' ≤ c ∧ c ≤ 'F' then some (c.toNat - 55)
  else none

/-- The value of a run of hexadecimal digits. -/
def hexNumber? (digits : List Char) : Option Nat :=
  digits.foldlM (fun n c => (hexValue? c).map (n * 16 + ·)) 0

/-- The hexadecimal digit of a number below sixteen, in small letters. -/
def hexDigit (n : Nat) : Char := Char.ofNat (if n < 10 then 48 + n else 87 + n)

namespace Quoted

/-! ## Reading -/

/-- The character that a one-letter escape stands for. -/
def escaped? : Char → Option Char
  | '"' => some '"'
  | '\\' => some '\\'
  | '/' => some '/'
  | 'b' => some '\x08'
  | 'f' => some '\x0c'
  | 'n' => some '\n'
  | 'r' => some '\r'
  | 't' => some '\t'
  | _ => none

/-- Cuts the text after an opening quote into units, up to the closing quote, and gives what
follows it.  A raw control character, an unknown escape or a missing quote is refused. -/
def read : List Char → Option (Quoted × List Char)
  | [] => none
  | '"' :: rest => some ([], rest)
  | '\\' :: 'u' :: a :: b :: c :: d :: rest =>
    match hexNumber? [a, b, c, d], read rest with
    | some n, some (units, after) => some (.code n :: units, after)
    | _, _ => none
  | '\\' :: e :: rest =>
    match escaped? e, read rest with
    | some c, some (units, after) => some (.char c :: units, after)
    | _, _ => none
  | c :: rest =>
    if c = '\\' ∨ c < ' ' then none
    else
      match read rest with
      | some (units, after) => some (.char c :: units, after)
      | none => none

/-- A code that begins a surrogate pair. -/
def isHighSurrogate (n : Nat) : Bool := 0xD800 ≤ n && n ≤ 0xDBFF

/-- A code that ends a surrogate pair. -/
def isLowSurrogate (n : Nat) : Bool := 0xDC00 ≤ n && n ≤ 0xDFFF

/-- The character that a surrogate pair stands for. -/
def pairChar (high low : Nat) : Char :=
  Char.ofNat (0x10000 + (high - 0xD800) * 0x400 + (low - 0xDC00))

/-- Joins units into characters; `none` when a surrogate is not half of a pair. -/
def join? : Quoted → Option (List Char)
  | [] => some []
  | .char c :: rest => (join? rest).map (c :: ·)
  | .code n :: rest =>
    if isLowSurrogate n then none
    else if isHighSurrogate n then
      match rest with
      | .code m :: rest =>
        if isLowSurrogate m then (join? rest).map (pairChar n m :: ·) else none
      | _ => none
    else (join? rest).map (Char.ofNat n :: ·)

/-- The text of a quoted string; `none` when it holds an unpaired surrogate. -/
def text? (quoted : Quoted) : Option String := (join? quoted).map String.ofList

/-! ## Writing -/

/-- How a character is written inside quotes. -/
def writeChar (c : Char) : List Char :=
  if c = '"' then ['\\', '"']
  else if c = '\\' then ['\\', '\\']
  else if c = '\x08' then ['\\', 'b']
  else if c = '\x0c' then ['\\', 'f']
  else if c = '\n' then ['\\', 'n']
  else if c = '\r' then ['\\', 'r']
  else if c = '\t' then ['\\', 't']
  else if c < ' ' then ['\\', 'u', '0', '0', hexDigit (c.toNat / 16), hexDigit (c.toNat % 16)]
  else [c]

/-- A text between quotes. -/
def write (text : String) : List Char :=
  '"' :: (text.toList.flatMap writeChar ++ ['"'])

end Quoted

end SiblingQuery
