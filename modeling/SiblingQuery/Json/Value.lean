import SiblingQuery.Number.Double

/-!
# JSON values

`Json` is the one value type of the library: the fields of a node, the attributes of a test and
the serialised form of a tree are all of it.  An object is a list of members in order.  Two uses
of that list are kept apart:

* in a *document*, as a tree serialises to one, members stand in the order of writing;
* in a *value*, as a field holds one, every object is sorted by key with each key once
  (`Json.normalize`), so that two values are the same exactly when they are equal member by member.

`Json.same` is equality of values.  Integers never equal doubles, and the two zeros of the doubles
are the same number.
-/

namespace SiblingQuery

/-- A JSON number: an integer between `-2 ^ 63` and `2 ^ 64 - 1`, or a finite double. -/
inductive Number where
  | int (value : Int)
  | float (value : Double)
deriving DecidableEq, Repr, Inhabited

namespace Number

/-- Equality of numbers: an integer is never the same as a double. -/
def same : Number → Number → Bool
  | .int a, .int b => a = b
  | .float a, .float b => a.same b
  | _, _ => false

end Number

/-- A JSON value, or a JSON document whose objects keep their order. -/
inductive Json where
  | null
  | bool (value : Bool)
  | num (value : Number)
  | str (value : String)
  | arr (items : List Json)
  | obj (members : List (String × Json))
deriving Repr, Inhabited

/-! ## Association lists by key -/

namespace Members

variable {α : Type}

/-- The value under a key, the first if there are several. -/
def get? (key : String) : List (String × α) → Option α
  | [] => none
  | (k, v) :: rest => if k = key then some v else get? key rest

/-- Sets a key: a present key keeps its place and takes the new value, a new one goes to the
end. -/
def set (key : String) (value : α) : List (String × α) → List (String × α)
  | [] => [(key, value)]
  | (k, v) :: rest => if k = key then (k, value) :: rest else (k, v) :: set key value rest

/-- Puts a key into a list sorted by key, replacing the value of a present key. -/
def insert (key : String) (value : α) : List (String × α) → List (String × α)
  | [] => [(key, value)]
  | (k, v) :: rest =>
    if k = key then (k, value) :: rest
    else if key < k then (key, value) :: (k, v) :: rest
    else (k, v) :: insert key value rest

/-- The members sorted by key, the last of several with one key standing for all. -/
def sorted (members : List (String × α)) : List (String × α) :=
  members.foldl (fun done member => insert member.1 member.2 done) []

end Members

namespace Json

/-! ## Equality of values -/

mutual

/-- Equality of normal values: objects are compared member by member. -/
def same : Json → Json → Bool
  | .null, .null => true
  | .bool a, .bool b => a = b
  | .num a, .num b => a.same b
  | .str a, .str b => a = b
  | .arr a, .arr b => sameItems a b
  | .obj a, .obj b => sameMembers a b
  | _, _ => false
termination_by structural value => value

/-- Equality of arrays, item by item. -/
def sameItems : List Json → List Json → Bool
  | [], [] => true
  | a :: as, b :: bs => same a b && sameItems as bs
  | _, _ => false
termination_by structural items => items

/-- Equality of objects, member by member. -/
def sameMembers : List (String × Json) → List (String × Json) → Bool
  | [], [] => true
  | (k, a) :: as, (l, b) :: bs => k = l && same a b && sameMembers as bs
  | _, _ => false
termination_by structural members => members

end

/-! ## Normal values -/

mutual

/-- The value of a document: every object sorted by key, each key once. -/
def normalize : Json → Json
  | .arr items => .arr (normalizeItems items)
  | .obj members => .obj (Members.sorted (normalizeMembers members))
  | scalar => scalar
termination_by structural value => value

/-- Normalises every item. -/
def normalizeItems : List Json → List Json
  | [] => []
  | item :: items => normalize item :: normalizeItems items
termination_by structural items => items

/-- Normalises the value of every member and keeps the members' order. -/
def normalizeMembers : List (String × Json) → List (String × Json)
  | [] => []
  | (key, value) :: members => (key, normalize value) :: normalizeMembers members
termination_by structural members => members

end

/-! ## Views -/

/-- The text of a string. -/
def string? : Json → Option String
  | .str s => some s
  | _ => none

/-- An array or an object. -/
def isContainer : Json → Bool
  | .arr _ | .obj _ => true
  | _ => false

/-- An integer that is a natural number. -/
def ofNat (n : Nat) : Json := .num (.int n)

end Json

end SiblingQuery
