import SiblingQuery.Json.Quoted
import SiblingQuery.Number.Numeral

/-!
# Tokens of JSON text

`Token.scan` cuts a text into the tokens of RFC 8259.  It refuses what no token can begin with and
tokens that break off; whether the tokens stand in a sensible order is not its business.  Numbers
stay numerals and strings stay quoted, so the token list loses nothing but blanks.
-/

namespace SiblingQuery

namespace Json

/-- A token of JSON text. -/
inductive Token where
  | openBrace | closeBrace | openBracket | closeBracket | comma | colon
  | null
  | bool (value : Bool)
  | number (numeral : Numeral)
  | string (quoted : Quoted)
deriving DecidableEq, Repr, Inhabited

namespace Token

/-- The four blanks of JSON. -/
def isSpace (c : Char) : Bool := c = ' ' || c = '\t' || c = '\n' || c = '\r'

/-- A run of at least one digit, and what follows it. -/
def digits? (text : List Char) : Option (List Char × List Char) :=
  match text.span Char.isDigit with
  | ([], _) => none
  | run => some run

/-- The digits before the point: a zero alone, or a run that does not begin with zero. -/
def whole? : List Char → Option (List Char × List Char)
  | '0' :: rest => some (['0'], rest)
  | text => digits? text

/-- The digits after a point, if a point comes next. -/
def fraction? : List Char → Option (Option (List Char) × List Char)
  | '.' :: rest => (digits? rest).map fun (run, after) => (some run, after)
  | text => some (none, text)

/-- The sign and digits after `e` or `E`, if one comes next. -/
def exponent? : List Char → Option (Option (Bool × List Char) × List Char)
  | c :: rest =>
    if c = 'e' ∨ c = 'E' then
      match rest with
      | '-' :: rest => (digits? rest).map fun (run, after) => (some (true, run), after)
      | '+' :: rest => (digits? rest).map fun (run, after) => (some (false, run), after)
      | _ => (digits? rest).map fun (run, after) => (some (false, run), after)
    else some (none, c :: rest)
  | [] => some (none, [])

/-- A number without its sign. -/
def unsigned? (negative : Bool) (text : List Char) : Option (Numeral × List Char) := do
  let (whole, rest) ← whole? text
  let (fraction, rest) ← fraction? rest
  let (exponent, rest) ← exponent? rest
  return (⟨negative, whole, fraction, exponent⟩, rest)

/-- A number, with a minus sign or none. -/
def numeral? : List Char → Option (Numeral × List Char)
  | '-' :: rest => unsigned? true rest
  | text => unsigned? false text

/-- The token at the front of a text that does not begin with a blank, and what follows it. -/
def next? : List Char → Option (Token × List Char)
  | '{' :: rest => some (.openBrace, rest)
  | '}' :: rest => some (.closeBrace, rest)
  | '[' :: rest => some (.openBracket, rest)
  | ']' :: rest => some (.closeBracket, rest)
  | ',' :: rest => some (.comma, rest)
  | ':' :: rest => some (.colon, rest)
  | 'n' :: 'u' :: 'l' :: 'l' :: rest => some (.null, rest)
  | 't' :: 'r' :: 'u' :: 'e' :: rest => some (.bool true, rest)
  | 'f' :: 'a' :: 'l' :: 's' :: 'e' :: rest => some (.bool false, rest)
  | '"' :: rest => (Quoted.read rest).map fun (quoted, after) => (.string quoted, after)
  | text => (numeral? text).map fun (numeral, after) => (.number numeral, after)

/-- The tokens of a text of at most `fuel` characters. -/
def scanFrom : Nat → List Char → Option (List Token)
  | _, [] => some []
  | 0, _ => none
  | fuel + 1, c :: rest =>
    if isSpace c then scanFrom fuel rest
    else
      match next? (c :: rest) with
      | none => none
      | some (token, after) => (scanFrom fuel after).map (token :: ·)

/-- The tokens of a text; `none` when it has something that is no token. -/
def scan (text : List Char) : Option (List Token) := scanFrom text.length text

end Token

end Json

end SiblingQuery
