/-!
# Ranges of code points

Tables of characters list code points as ranges in ascending order.
-/

namespace SiblingQuery

namespace Text

/-- Whether a code point lies in one of the ranges. -/
def inRanges (n : Nat) : List (Nat × Nat) → Bool
  | [] => false
  | (low, high) :: rest => if n < low then false else n ≤ high || inRanges n rest

/-- Whether a code point lies in one of the ranges, an even number of steps from its start. -/
def inAlternating (n : Nat) : List (Nat × Nat) → Bool
  | [] => false
  | (low, high) :: rest =>
    if n < low then false else (n ≤ high && (n - low) % 2 = 0) || inAlternating n rest

end Text

end SiblingQuery
