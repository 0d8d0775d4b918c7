import SiblingQuery.Text.Ranges

/-!
# Sets of characters

A pattern speaks of characters through sets: ranges of code points and what can be made of them.
`CharSet.contains` decides membership.  The sets that go by a name are sets of ASCII characters.
-/

namespace SiblingQuery

namespace Regex

/-- A set of characters. -/
inductive CharSet where
  /-- The characters of some ranges of code points, in ascending order. -/
  | ranges (list : List (Nat × Nat))
  | union (a b : CharSet)
  | inter (a b : CharSet)
  | compl (a : CharSet)
  /-- The members of a set, and the ASCII letters that differ from one only in case. -/
  | caseless (a : CharSet)
deriving DecidableEq, Repr, Inhabited

namespace CharSet

/-- An ASCII letter in its other case. -/
def otherCase (c : Char) : Char := if c.isUpper then c.toLower else c.toUpper

/-- Whether a character is in a set. -/
def contains : CharSet → Char → Bool
  | .ranges list, c => Text.inRanges c.toNat list
  | .union a b, c => a.contains c || b.contains c
  | .inter a b, c => a.contains c && b.contains c
  | .compl a, c => !a.contains c
  | .caseless a, c => a.contains c || a.contains (otherCase c)

/-- The characters from one to another. -/
def span (low high : Char) : CharSet := .ranges [(low.toNat, high.toNat)]

/-- The set of one character. -/
def single (c : Char) : CharSet := span c c

/-- The set without a member. -/
def void : CharSet := .ranges []

/-- The members of the first set that are not in the second. -/
def diff (a b : CharSet) : CharSet := .inter a (.compl b)

/-- The members of one of two sets that are not in both. -/
def symmDiff (a b : CharSet) : CharSet := .union (a.diff b) (b.diff a)

/-! ## Named sets -/

/-- The digits. -/
def digit : CharSet := .ranges [(0x30, 0x39)]

/-- The blanks. -/
def blank : CharSet := .ranges [(0x09, 0x0D), (0x20, 0x20)]

/-- The characters of words: letters, digits and the low line. -/
def word : CharSet := .ranges [(0x30, 0x39), (0x41, 0x5A), (0x5F, 0x5F), (0x61, 0x7A)]

/-- The set that a name stands for. -/
def named? : String → Option CharSet
  | "alnum" => some (.ranges [(0x30, 0x39), (0x41, 0x5A), (0x61, 0x7A)])
  | "alpha" => some (.ranges [(0x41, 0x5A), (0x61, 0x7A)])
  | "ascii" => some (.ranges [(0x00, 0x7F)])
  | "blank" => some (.ranges [(0x09, 0x09), (0x20, 0x20)])
  | "cntrl" => some (.ranges [(0x00, 0x1F), (0x7F, 0x7F)])
  | "digit" => some digit
  | "graph" => some (.ranges [(0x21, 0x7E)])
  | "lower" => some (.ranges [(0x61, 0x7A)])
  | "print" => some (.ranges [(0x20, 0x7E)])
  | "punct" => some (.ranges [(0x21, 0x2F), (0x3A, 0x40), (0x5B, 0x60), (0x7B, 0x7E)])
  | "space" => some blank
  | "upper" => some (.ranges [(0x41, 0x5A)])
  | "word" => some word
  | "xdigit" => some (.ranges [(0x30, 0x39), (0x41, 0x46), (0x61, 0x66)])
  | _ => none

/-! ## Size -/

/-- The number of ranges that a set is written with. -/
def rangeCount : CharSet → Nat
  | .ranges list => list.length
  | .union a b => a.rangeCount + b.rangeCount
  | .inter a b => max a.rangeCount b.rangeCount
  | .compl a => a.rangeCount + 1
  | .caseless a => 2 * a.rangeCount

/-- The set is made so that it has no members above ASCII. -/
def isAscii : CharSet → Bool
  | .ranges list => list.all (·.2 < 0x80)
  | .union a b => a.isAscii && b.isAscii
  | .inter a b => a.isAscii || b.isAscii
  | .compl _ => false
  | .caseless a => a.isAscii

/-- Roughly the octets of an automaton that recognises a member, read forward or backward. -/
def octets (backward : Bool) : CharSet → Nat
  | .ranges [(low, high)] =>
    if low = high then 32 * (Char.ofNat low).utf8Size
    else if high < 0x80 then 72 else if backward then 1000 else 424
  | set =>
    if set.isAscii then 64 + 8 * set.rangeCount
    else if backward then 850 + 75 * set.rangeCount else 300 + 62 * set.rangeCount

end CharSet

end Regex

end SiblingQuery
