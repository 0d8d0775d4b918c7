import SiblingQuery.Json.Value
import SiblingQuery.Number.Word
import SiblingQuery.Text.Blank
import SiblingQuery.Tree.Place

/-!
# Where a search starts

A search starts after an index or after a child.  An index is a natural number, and one beyond the
unsigned 64-bit words counts as the largest of them: no children list is that long.  A position
can be given as an integer, a double, a JSON value or a text, and the index rules are the same for
all: negative, fractional and infinite numbers are refused as indices, and what is no number is
refused as a position.
-/

namespace SiblingQuery

/-- Why a query fails. -/
inductive FindError where
  | invalidParent
  | invalidPosition
  | invalidIndex
  | nodeNotFound
  | invalidTest (found : String)
deriving DecidableEq, Repr, Inhabited

/-- What is said about a failed query. -/
def FindError.message : FindError → String
  | .invalidParent => "Expected parent node"
  | .invalidPosition => "Expected child node or index"
  | .invalidIndex => "Expected positive finite number as index"
  | .nodeNotFound => "Expected child node"
  | .invalidTest found => "Expected function, string, or object as test, not " ++ found

/-- Where a search starts; the start itself is never found. -/
inductive Position where
  | index (n : Nat)
  | child (node : Occurrence)
deriving Repr, Inhabited

namespace Position

/-- The position of an integer. -/
def ofInt (n : Int) : Except FindError Position :=
  if n < 0 then .error .invalidIndex else .ok (.index (min n.toNat maxWord))

/-- The position of a double: a whole number that is not below zero. -/
def ofDouble : DoubleBits → Except FindError Position
  | .finite d =>
    match d.whole? with
    | some n => if d.isNegative then .error .invalidIndex else .ok (.index (min n maxWord))
    | none => .error .invalidIndex
  | .infinite _ | .nan => .error .invalidIndex

/-- The position of a JSON value.  An object with a text as `type` is a node, but one that has
just been read is nobody's child. -/
def ofJson : Json → Except FindError Position
  | .num (.int n) => ofInt n
  | .num (.float d) => ofDouble (.finite d)
  | .obj members =>
    match (Members.get? "type" members).bind Json.string? with
    | some _ => .error .nodeNotFound
    | none => .error .invalidPosition
  | _ => .error .invalidPosition

/-- The position of a text: a word, a signed integer or a real number, with blanks around it
skipped. -/
def parse (text : String) : Except FindError Position :=
  let trimmed := Text.trim text.toList
  match Word.parse trimmed with
  | .ok n => .ok (.index n)
  | .error _ =>
    match Word.parseSigned? trimmed with
    | some n => ofInt n
    | none =>
      match Real.parse? trimmed with
      | some d => ofDouble d
      | none => .error .invalidPosition

/-- The index of a position among the children of a parent. -/
def resolve (parent : Occurrence) : Position → Except FindError Nat
  | .index n => .ok n
  | .child node =>
    match parent.indexOf? node with
    | some n => .ok n
    | none => .error .nodeNotFound

end Position

end SiblingQuery
