import SiblingQuery.Regex.Mode

/-!
# Escapes

What a backslash in a pattern makes of the characters after it: a character, a class, or a
condition on a place.  Letters and digits that no escape is known for are refused.
-/

namespace SiblingQuery

namespace Regex

/-- What an escape says. -/
inductive Escape where
  | letter (letter : Letter)
  | charClass (set : CharSet) (negated : Bool)
  | textStart
  | textEnd
  | word (condition : WordLook)
deriving DecidableEq, Repr, Inhabited

namespace Escape

/-! ## Numbers -/

/-- A hexadecimal digit. -/
def isHexDigit (c : Char) : Bool := c.isDigit || ('a' ≤ c && c ≤ 'f') || ('A' ≤ c && c ≤ 'F')

/-- The value of a hexadecimal digit. -/
def hexValue (c : Char) : Nat :=
  if c.isDigit then c.toNat - '0'.toNat else c.toLower.toNat - 'a'.toNat + 10

/-- The character with a code of some hexadecimal digits. -/
def ofHex? (digits : List Char) : Option Char :=
  let code := digits.foldl (fun n c => 16 * n + hexValue c) 0
  if digits ≠ [] ∧ code.isValidChar then some (Char.ofNat code) else none

/-- A fixed number of hexadecimal digits, and what is left. -/
def digits? (mode : Mode) : Nat → List Char → Option (List Char × List Char)
  | 0, text => some ([], text)
  | _ + 1, [] => none
  | count + 1, c :: rest =>
    if isHexDigit c then
      (digits? mode count (mode.skip rest)).map fun (more, left) => (c :: more, left)
    else none

/-- A code, either in braces or of a fixed number of digits. -/
def code? (mode : Mode) (count : Nat) (text : List Char) : Option (Escape × List Char) :=
  match mode.skip text with
  | '{' :: rest =>
    match mode.collect isHexDigit (mode.skip rest) with
    | (digits, '}' :: left) => (ofHex? digits).map fun c => (.letter ⟨c, false⟩, mode.skip left)
    | _ => none
  | text =>
    (digits? mode count text).bind fun (digits, left) =>
      (ofHex? digits).map fun c => (.letter ⟨c, count = 2⟩, left)

/-! ## Conditions on words -/

/-- The condition of a name in braces. -/
def wordLook? : String → Option WordLook
  | "start" => some .start
  | "end" => some .end
  | "start-half" => some .startHalf
  | "end-half" => some .endHalf
  | _ => none

/-- A character of the name of a condition. -/
def isNameChar (c : Char) : Bool := c.isAlpha || c = '-'

/-- A condition on words, with a name in braces or without.  Braces around something else are left
for a count. -/
def boundary? (mode : Mode) : List Char → Option (Escape × List Char)
  | '{' :: rest =>
    match mode.skip rest with
    | [] => none
    | c :: inside =>
      if isNameChar c then
        match mode.collect isNameChar (c :: inside) with
        | (name, '}' :: left) =>
          (wordLook? (String.ofList name)).map fun condition => (.word condition, left)
        | _ => none
      else some (.word .boundary, '{' :: rest)
  | text => some (.word .boundary, text)

/-! ## Reading -/

/-- The escape at the start of what follows a backslash, and what is left. -/
def read? (mode : Mode) : List Char → Option (Escape × List Char)
  | [] => none
  | c :: rest =>
    match c with
    | 'x' => code? mode 2 rest
    | 'u' => code? mode 4 rest
    | 'U' => code? mode 8 rest
    | 'd' => some (.charClass .digit false, rest)
    | 'D' => some (.charClass .digit true, rest)
    | 's' => some (.charClass .blank false, rest)
    | 'S' => some (.charClass .blank true, rest)
    | 'w' => some (.charClass .word false, rest)
    | 'W' => some (.charClass .word true, rest)
    | 'a' => some (.letter ⟨'\x07', false⟩, rest)
    | 'f' => some (.letter ⟨'\x0C', false⟩, rest)
    | 't' => some (.letter ⟨'\t', false⟩, rest)
    | 'n' => some (.letter ⟨'\n', false⟩, rest)
    | 'r' => some (.letter ⟨'\r', false⟩, rest)
    | 'v' => some (.letter ⟨'\x0B', false⟩, rest)
    | 'A' => some (.textStart, rest)
    | 'z' => some (.textEnd, rest)
    | 'b' => boundary? mode rest
    | 'B' => some (.word .noBoundary, rest)
    | '<' => some (.word .start, rest)
    | '>' => some (.word .end, rest)
    | c =>
      if c.toNat < 0x80 ∧ !c.isAlphanum then some (.letter ⟨c, false⟩, rest) else none

/-! ## Meaning -/

/-- What an escape outside of classes stands for. -/
def pattern? (mode : Mode) : Escape → Option Pattern
  | .letter char => mode.letter? char
  | .charClass set negated => (mode.class? set negated).map .one
  | .textStart => some (.look .textStart)
  | .textEnd => some (.look .textEnd)
  | .word condition => some (.look (mode.word condition))

end Escape

end Regex

end SiblingQuery
