import SiblingQuery.Json.Token
import SiblingQuery.Json.Value

/-!
# JSON text as a tree

`Json.Source` is what a JSON text says before anything is decided about it: members in order,
keys possibly repeated, numbers as numerals, strings as written.  `Source.read` accepts exactly the
texts of RFC 8259.  It runs a machine over the tokens, one step a token, with the open arrays and
objects on a stack.

`Source.value?` is the reading as a value.  It refuses what the format allows but a value cannot
hold: a number beyond the doubles, an unpaired surrogate, and nesting deeper than its limit.
-/

namespace SiblingQuery

/-- The number that a numeral denotes: an integer if it is written as one and fits a signed or an
unsigned 64-bit word, and otherwise a double.  A negative zero is a double, because it has a
sign to keep. -/
def Number.ofNumeral? (n : Numeral) : Option Number :=
  let magnitude := Numeral.natOfDigits n.whole
  if n.isInteger && !n.negative && magnitude ≤ maxWord then some (.int magnitude)
  else if n.isInteger && n.negative && 0 < magnitude && magnitude ≤ signedBound then
    some (.int (-magnitude))
  else n.gathered.map .float

namespace Json

/-- A JSON text as a tree. -/
inductive Source where
  | null
  | bool (value : Bool)
  | number (numeral : Numeral)
  | string (quoted : Quoted)
  | array (items : List Source)
  | object (members : List (Quoted × Source))
deriving Repr, Inhabited

namespace Source

/-! ## From tokens -/

/-- An array or an object that is not closed yet; what is complete in it stands last first. -/
inductive Frame where
  | array (done : List Source)
  | object (done : List (Quoted × Source)) (key : Quoted)
deriving Repr, Inhabited

/-- What has been read, and hence what may come next. -/
inductive State where
  /-- A value must come. -/
  | value (stack : List Frame)
  /-- An array has just been opened: a value or its end must come. -/
  | item (stack : List Frame)
  /-- A key must come, or if the object has just been opened its end. -/
  | key (opened : Bool) (done : List (Quoted × Source)) (stack : List Frame)
  /-- A key has been read: a colon must come. -/
  | colon (key : Quoted) (done : List (Quoted × Source)) (stack : List Frame)
  /-- A value is complete: a comma or an end must come, or nothing at the top. -/
  | after (value : Source) (stack : List Frame)
deriving Repr, Inhabited

/-- One step where a value must come. -/
def startValue (stack : List Frame) : Token → Option State
  | .null => some (.after .null stack)
  | .bool b => some (.after (.bool b) stack)
  | .number n => some (.after (.number n) stack)
  | .string q => some (.after (.string q) stack)
  | .openBracket => some (.item stack)
  | .openBrace => some (.key true [] stack)
  | _ => none

/-- One step of the reading machine. -/
def step : State → Token → Option State
  | .value stack, token => startValue stack token
  | .item stack, .closeBracket => some (.after (.array []) stack)
  | .item stack, token => startValue (.array [] :: stack) token
  | .key _ done stack, .string q => some (.colon q done stack)
  | .key true _ stack, .closeBrace => some (.after (.object []) stack)
  | .colon key done stack, .colon => some (.value (.object done key :: stack))
  | .after v (.array done :: stack), .comma => some (.value (.array (v :: done) :: stack))
  | .after v (.array done :: stack), .closeBracket =>
    some (.after (.array (v :: done).reverse) stack)
  | .after v (.object done key :: stack), .comma => some (.key false ((key, v) :: done) stack)
  | .after v (.object done key :: stack), .closeBrace =>
    some (.after (.object ((key, v) :: done).reverse) stack)
  | _, _ => none

/-- The tree of a list of tokens that is exactly one value. -/
def ofTokens? (tokens : List Token) : Option Source :=
  match tokens.foldlM step (.value []) with
  | some (.after value []) => some value
  | _ => none

/-- The tree of a JSON text. -/
def read (text : List Char) : Option Source := (Token.scan text).bind ofTokens?

/-! ## Values -/

/-- How many arrays and objects may stand inside one another in what is loaded. -/
def maxDepth : Nat := 127

mutual

/-- The value of a tree, at most `depth` arrays and objects deep. -/
def value? (depth : Nat) : Source → Option Json
  | .null => some .null
  | .bool b => some (.bool b)
  | .number n => (Number.ofNumeral? n).map .num
  | .string q => q.text?.map .str
  | .array items =>
    match depth with
    | 0 => none
    | depth + 1 => (values? depth items).map .arr
  | .object members =>
    match depth with
    | 0 => none
    | depth + 1 => (memberValues? depth members).map fun done => .obj (Members.sorted done)
termination_by structural source => source

/-- The values of all items. -/
def values? (depth : Nat) : List Source → Option (List Json)
  | [] => some []
  | item :: items =>
    match value? depth item, values? depth items with
    | some value, some values => some (value :: values)
    | _, _ => none
termination_by structural items => items

/-- The values of all members, in the order written. -/
def memberValues? (depth : Nat) : List (Quoted × Source) → Option (List (String × Json))
  | [] => some []
  | (key, source) :: members =>
    match key.text?, value? depth source, memberValues? depth members with
    | some key, some value, some values => some ((key, value) :: values)
    | _, _, _ => none
termination_by structural members => members

end

end Source

/-- The value of a JSON text. -/
def parse? (text : String) : Option Json :=
  (Source.read text.toList).bind (Source.value? Source.maxDepth)

end Json

end SiblingQuery
