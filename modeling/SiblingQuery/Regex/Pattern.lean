import SiblingQuery.Regex.CharSet

/-!
# Patterns and where they match

A `Pattern` describes stretches of a text.  `Pattern.after` says what a pattern does to a set of
places in a text: from the places where a match may begin to those where it may end.  A pattern
occurs in a text if, begun anywhere, it can end somewhere.

Places are counted in characters from the start of the text, and a set of them is an ascending list.
A text with `n` characters has `n + 1` places, so that a repetition reaches all it can reach in
`n + 1` rounds.
-/

namespace SiblingQuery

namespace Regex

/-! ## Conditions on places -/

/-- A condition on a place that words near it decide. -/
inductive WordLook where
  /-- Between a character of words and another. -/
  | boundary
  | noBoundary
  | start
  | «end»
  /-- Not after a character of words. -/
  | startHalf
  /-- Not before a character of words. -/
  | endHalf
deriving DecidableEq, Repr, Inhabited

/-- A condition on a place, which looks at the characters on both sides of it. -/
inductive Look where
  | textStart
  | textEnd
  /-- The start of a line; with `crlf` also a carriage return ends lines. -/
  | lineStart (crlf : Bool)
  /-- The end of a line. -/
  | lineEnd (crlf : Bool)
  | word (condition : WordLook)
  /-- A condition on words with characters of any script. -/
  | anyWord (condition : WordLook)
deriving DecidableEq, Repr, Inhabited

/-- Whether a condition on words holds, by what is before and after. -/
def WordLook.holds (before after : Bool) : WordLook → Bool
  | .boundary => before != after
  | .noBoundary => before == after
  | .start => !before && after
  | .end => before && !after
  | .startHalf => !before
  | .endHalf => !after

namespace Look

/-- There is a character of words. -/
def isWord (c : Option Char) : Bool := c.any CharSet.word.contains

/-- Whether the condition holds between two characters, of which either may be missing.  Which
characters of any script belong to words is not known here, and a condition on them holds nowhere. -/
def holds (look : Look) (before after : Option Char) : Bool :=
  match look with
  | .textStart => before = none
  | .textEnd => after = none
  | .lineStart crlf =>
    before = none || before = some '\n' || (crlf && before = some '\r' && after ≠ some '\n')
  | .lineEnd crlf =>
    after = none || (after = some '\n' && !(crlf && before = some '\r')) ||
      (crlf && after = some '\r')
  | .word condition => condition.holds (isWord before) (isWord after)
  | .anyWord _ => false

end Look

/-! ## Patterns -/

/-- A pattern. -/
inductive Pattern where
  | empty
  | one (set : CharSet)
  | look (look : Look)
  | seq (a b : Pattern)
  | alt (a b : Pattern)
  /-- At least and at most so many times; without a bound if there is none. -/
  | repeated (a : Pattern) (least : Nat) (most : Option Nat)
  /-- A group whose match can be asked for. -/
  | group (a : Pattern)
deriving DecidableEq, Repr, Inhabited

namespace Pattern

/-- The pattern matches nothing but empty stretches. -/
def isVoid : Pattern → Bool
  | .empty | .look _ => true
  | .one _ => false
  | .seq a b | .alt a b => a.isVoid && b.isVoid
  | .repeated a _ _ | .group a => a.isVoid

/-- A pattern repeated, as simply as can be: an empty stretch more than once is the same as once. -/
def times (a : Pattern) (least : Nat) (most : Option Nat) : Pattern :=
  let (least, most) :=
    if a.isVoid then (min least 1, some (min (most.getD 1) 1)) else (least, most)
  if most = some 0 then .empty
  else if least = 1 ∧ most = some 1 then a
  else .repeated a least most

/-- The pattern has a condition on words of any script. -/
def looksAtAnyWord : Pattern → Bool
  | .look (.anyWord _) => true
  | .empty | .one _ | .look _ => false
  | .seq a b | .alt a b => a.looksAtAnyWord || b.looksAtAnyWord
  | .repeated a _ _ | .group a => a.looksAtAnyWord

/-- Roughly the octets of an automaton for the pattern, read forward or backward.  It writes
repetitions out, and only forward it has states for groups. -/
def octets (backward : Bool) : Pattern → Nat
  | .empty | .look _ => 32
  | .one set => set.octets backward
  | .seq a b => a.octets backward + b.octets backward
  | .alt a b => a.octets backward + b.octets backward + 36
  | .repeated a least none => max 1 least * a.octets backward + 40
  | .repeated a least (some most) =>
    least * a.octets backward + (most - least) * (a.octets backward + 40)
  | .group a => a.octets backward + if backward then 0 else 64

/-- The most octets that an automaton may take. -/
def maxOctets : Nat := 10 * 1024 * 1024

/-- The pattern is within what can be matched. -/
def isSupported (pattern : Pattern) : Bool :=
  !pattern.looksAtAnyWord && pattern.octets false ≤ maxOctets && pattern.octets true ≤ maxOctets

/-! ## Sets of places -/

/-- The union of two ascending lists. -/
def merge : List Nat → List Nat → List Nat
  | [], b => b
  | a, [] => a
  | x :: a, y :: b =>
    if x < y then x :: merge a (y :: b)
    else if y < x then y :: merge (x :: a) b
    else x :: merge a b

/-- The members of an ascending list that are not in another. -/
def without : List Nat → List Nat → List Nat
  | [], _ => []
  | a, [] => a
  | x :: a, y :: b =>
    if x < y then x :: without a (y :: b)
    else if y < x then without (x :: a) b
    else without a b

/-- Takes a step a number of times. -/
def iterate (step : List Nat → List Nat) : Nat → List Nat → List Nat
  | 0, places => places
  | count + 1, places => if places = [] then [] else iterate step count (step places)

/-- The places `seen` with those that can be reached from `fresh` in at most a number of steps. -/
def reach (step : List Nat → List Nat) : Nat → List Nat → List Nat → List Nat
  | 0, _, seen => seen
  | count + 1, fresh, seen =>
    let more := without (step fresh) seen
    if more = [] then seen else reach step count more (merge seen more)

/-! ## Matching -/

/-- The places where a match that begins at one of some places can end. -/
def after (text : Array Char) : Pattern → List Nat → List Nat
  | .empty, places => places
  | .one set, places =>
    places.filterMap fun place =>
      match text[place]? with
      | some c => if set.contains c then some (place + 1) else none
      | none => none
  | .look condition, places =>
    places.filter fun place =>
      condition.holds (if place = 0 then none else text[place - 1]?) text[place]?
  | .seq a b, places => b.after text (a.after text places)
  | .alt a b, places => merge (a.after text places) (b.after text places)
  | .repeated a least most, places =>
    let rounds := text.size + 1
    let more := match most with
      | none => rounds
      | some most => min (most - least) rounds
    let places := iterate (a.after text) (min least rounds) places
    reach (a.after text) more places places
  | .group a, places => a.after text places

/-- Whether the pattern matches anywhere in a text. -/
def occursIn (pattern : Pattern) (text : String) : Bool :=
  let chars := text.toList.toArray
  pattern.after chars (List.range (chars.size + 1)) ≠ []

end Pattern

end Regex

end SiblingQuery
