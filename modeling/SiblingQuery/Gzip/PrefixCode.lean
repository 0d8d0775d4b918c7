import SiblingQuery.Gzip.Bits

/-!
# Canonical prefix codes

A prefix code is given by the length of each symbol's code word, zero for a symbol without one.
Shorter words come before longer ones, and among words of one length the order is that of the
symbols.  So it is enough to know how many words there are of each length, and the symbols in the
order of their words.
-/

namespace SiblingQuery

namespace Gzip

/-- The longest code word. -/
def maxWordLength : Nat := 15

/-- A canonical prefix code. -/
structure PrefixCode where
  /-- How many words have length 1, 2, and so on. -/
  counts : List Nat
  /-- The symbols in the order of their words. -/
  symbols : Array Nat
deriving Repr, Inhabited

namespace PrefixCode

/-- The code in which symbol `i` has a word of length `lengths[i]`. -/
def ofLengths (lengths : List Nat) : PrefixCode :=
  let range := (List.range maxWordLength).map (· + 1)
  let indexed := lengths.zipIdx
  ⟨range.map fun n => lengths.count n,
    (range.flatMap fun n => indexed.filterMap fun (length, symbol) =>
      if length = n then some symbol else none).toArray⟩

/-- How many words there are. -/
def size (code : PrefixCode) : Nat := code.symbols.size

/-- What the words take of all bit sequences of the longest length. -/
def share (code : PrefixCode) : Nat := code.counts.foldl (fun total n => 2 * total + n) 0

/-- Every sequence of bits begins with exactly one word. -/
def isComplete (code : PrefixCode) : Bool := code.share = Nat.pow 2 maxWordLength

/-- Goes through the lengths.  `word` is the bits read so far, `first` the first word of their
length and `index` the place of its symbol. -/
def symbolFrom (symbols : Array Nat) : List Nat → Nat → Nat → Nat → Bits → Option (Nat × Bits)
  | [], _, _, _, _ => none
  | count :: counts, word, first, index, bits =>
    match bits.next? with
    | none => none
    | some (bit, bits) =>
      let word := 2 * word + bit.toNat
      if word < first + count then
        (symbols[index + (word - first)]?).map (·, bits)
      else symbolFrom symbols counts word (2 * (first + count)) (index + count) bits

/-- The symbol whose word comes next. -/
def symbol? (code : PrefixCode) (bits : Bits) : Option (Nat × Bits) :=
  symbolFrom code.symbols code.counts 0 0 0 bits

end PrefixCode

end Gzip

end SiblingQuery
