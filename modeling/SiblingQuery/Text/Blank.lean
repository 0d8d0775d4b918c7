/-!
# Blank characters

The characters that Unicode gives the property `White_Space`, and trimming by them.  The set is a
fixed table of twenty-five code points; `Char.isWhitespace` knows only a few of them.
-/

namespace SiblingQuery

namespace Text

/-- A character with the Unicode property `White_Space`. -/
def isBlank (c : Char) : Bool :=
  let n := c.toNat
  (9 ≤ n && n ≤ 13) || n = 32 || n = 0x85 || n = 0xA0 || n = 0x1680 ||
    (0x2000 ≤ n && n ≤ 0x200A) || n = 0x2028 || n = 0x2029 || n = 0x202F || n = 0x205F ||
    n = 0x3000

/-- The text without blanks at its end. -/
def trimEnd (text : List Char) : List Char := (text.reverse.dropWhile isBlank).reverse

/-- The text without blanks at either end. -/
def trim (text : List Char) : List Char := trimEnd (text.dropWhile isBlank)

/-- The pieces of a text between the occurrences of a separator: always at least one. -/
def splitOn (separator : Char) : List Char → List (List Char)
  | [] => [[]]
  | c :: rest =>
    if c = separator then [] :: splitOn separator rest
    else
      match splitOn separator rest with
      | [] => [[c]]
      | piece :: pieces => (c :: piece) :: pieces

/-- An ASCII capital letter becomes small; every other character stays. -/
def lowerAscii (text : String) : String := text.map Char.toLower

end Text

end SiblingQuery
