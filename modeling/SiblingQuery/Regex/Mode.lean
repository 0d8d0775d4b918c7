import SiblingQuery.Regex.Pattern
import SiblingQuery.Text.Blank

/-!
# Modes of reading a pattern

How a pattern is read depends on a mode, which the pattern itself can change for a group or for the
rest of one.  A `Mode` says what characters, classes and conditions stand for.

A pattern speaks of all characters or, in the mode `ascii`, of ASCII alone.  Nothing here knows
which characters of other scripts are digits, blanks or parts of words, or which differ only in
case.  So the classes for these, and letters without regard to case, are there only for ASCII.  In turn the
mode `ascii` has no sets with members above ASCII, which are not whole characters there.
-/

namespace SiblingQuery

namespace Regex

/-- A character of a pattern.  One that is written as two digits of its code is an octet in the mode
`ascii`. -/
structure Letter where
  char : Char
  isOctet : Bool := false
deriving DecidableEq, Repr, Inhabited

/-- How a pattern is read. -/
structure Mode where
  /-- Letters match without regard to case. -/
  caseless : Bool := false
  /-- The signs for the start and the end of a text stand for those of a line. -/
  multiline : Bool := false
  /-- The sign for any character stands also for a line feed. -/
  dotAll : Bool := false
  /-- Only ASCII is known. -/
  ascii : Bool := false
  /-- A carriage return ends lines too. -/
  crlf : Bool := false
  /-- Blanks and comments are skipped. -/
  verbose : Bool := false
deriving DecidableEq, Repr, Inhabited

namespace Mode

/-- The mode after a flag has been set or taken back.  The flag `U` is for the choice among several
matches and changes nothing here. -/
def set? (mode : Mode) (flag : Char) (value : Bool) : Option Mode :=
  match flag with
  | 'i' => some { mode with caseless := value }
  | 'm' => some { mode with multiline := value }
  | 's' => some { mode with dotAll := value }
  | 'u' => some { mode with ascii := !value }
  | 'R' => some { mode with crlf := value }
  | 'x' => some { mode with verbose := value }
  | 'U' => some mode
  | _ => none

/-- Sets the flags of a text and, after a hyphen, takes flags back.  A flag or hyphen that has come
before, and a hyphen at the end, are refused. -/
def change? (mode : Mode) (value : Bool) (before : List Char) : List Char → Option Mode
  | [] => some mode
  | c :: rest =>
    if c ∈ before then none
    else if c = '-' then if rest = [] then none else mode.change? false (c :: before) rest
    else (mode.set? c value).bind fun mode => mode.change? value (c :: before) rest

/-! ## What stands for what -/

/-- What a character stands for. -/
def letter? (mode : Mode) (letter : Letter) : Option Pattern :=
  let set := CharSet.single letter.char
  if mode.ascii then
    if letter.isOctet ∧ 0x80 ≤ letter.char.toNat then none
    else some (.one (if mode.caseless then .caseless set else set))
  else if mode.caseless then none else some (.one set)

/-- What a set stands for among the members of a class. -/
def members? (mode : Mode) (set : CharSet) (negated : Bool) : Option CharSet :=
  if mode.ascii then
    if negated ∨ !set.isAscii then none
    else some (if mode.caseless then .caseless set else set)
  else if mode.caseless then none else some (if negated then .compl set else set)

/-- What a class stands for whose members have been read. -/
def bracket? (mode : Mode) (set : CharSet) (negated : Bool) : Option CharSet :=
  if !negated then some set else if mode.ascii then none else some (.compl set)

/-- What a class with a sign of its own stands for. -/
def class? (mode : Mode) (set : CharSet) (negated : Bool) : Option CharSet :=
  if mode.ascii ∧ !negated then some set else none

/-- What the sign for any character stands for. -/
def dot? (mode : Mode) : Option Pattern :=
  if mode.ascii then none
  else if mode.dotAll then some (.one (.compl .void))
  else some (.one (.compl (.ranges
    (if mode.crlf then [(0x0A, 0x0A), (0x0D, 0x0D)] else [(0x0A, 0x0A)]))))

/-- The condition that the sign for the start stands for. -/
def start (mode : Mode) : Look := if mode.multiline then .lineStart mode.crlf else .textStart

/-- The condition that the sign for the end stands for. -/
def finish (mode : Mode) : Look := if mode.multiline then .lineEnd mode.crlf else .textEnd

/-- The condition on words that the signs for it stand for. -/
def word (mode : Mode) (condition : WordLook) : Look :=
  if mode.ascii then .word condition else .anyWord condition

/-! ## Blanks -/

/-- What is left after blanks and comments, or first the rest of a comment. -/
def pastBlanks (inComment : Bool) : List Char → List Char
  | [] => []
  | c :: rest =>
    if inComment then pastBlanks (c ≠ '\n') rest
    else if Text.isBlank c then pastBlanks false rest
    else if c = '#' then pastBlanks true rest
    else c :: rest

/-- What is left after what the mode skips. -/
def skip (mode : Mode) (text : List Char) : List Char :=
  if mode.verbose then pastBlanks false text else text

theorem length_pastBlanks (inComment : Bool) (text : List Char) :
    (pastBlanks inComment text).length ≤ text.length := by
  induction text generalizing inComment with
  | nil => simp [pastBlanks]
  | cons c rest ih =>
    simp only [pastBlanks]
    split
    · exact Nat.le_succ_of_le (ih _)
    · split
      · exact Nat.le_succ_of_le (ih _)
      · split
        · exact Nat.le_succ_of_le (ih _)
        · exact Nat.le_refl _

theorem length_skip (mode : Mode) (text : List Char) : (mode.skip text).length ≤ text.length := by
  unfold skip
  split
  · exact length_pastBlanks _ _
  · exact Nat.le_refl _

/-- The characters of a kind at the start, blanks skipped after each, and what is left. -/
def collect (mode : Mode) (kind : Char → Bool) : List Char → List Char × List Char
  | [] => ([], [])
  | c :: rest =>
    if kind c then
      let (more, left) := mode.collect kind (mode.skip rest)
      (c :: more, left)
    else ([], c :: rest)
  termination_by text => text.length
  decreasing_by
    have := length_skip mode rest
    simp only [List.length_cons]
    omega

end Mode

end Regex

end SiblingQuery
