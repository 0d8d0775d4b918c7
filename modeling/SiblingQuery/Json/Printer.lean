import SiblingQuery.Json.Quoted
import SiblingQuery.Json.Value
import SiblingQuery.Number.Shortest

/-!
# JSON text of a document

Two layouts of one document: `Json.compact` puts everything on one line without blanks, and
`Json.pretty` indents by two blanks a level and puts every item and member on a line of its own,
except that an empty array or object stays `[]` or `{}`.  Members are written in the order that
the document has them.
-/

namespace SiblingQuery

namespace Json

/-- In JSON text an exponent that is not negative has a plus sign. -/
def doubleNotation : DoubleNotation := ⟨['+']⟩

end Json

/-- The decimal text of an integer. -/
def intText (n : Int) : List Char :=
  if n < 0 then '-' :: Nat.toDigits 10 n.natAbs else Nat.toDigits 10 n.natAbs

/-- The text of a number, doubles in the given notation. -/
def Number.write (notate : DoubleNotation) : Number → List Char
  | .int n => intText n
  | .float d => notate.write d

namespace Json

/-- The text of a value that is neither array nor object. -/
def scalarText : Json → List Char
  | .null => ['n', 'u', 'l', 'l']
  | .bool true => ['t', 'r', 'u', 'e']
  | .bool false => ['f', 'a', 'l', 's', 'e']
  | .num n => n.write doubleNotation
  | .str s => Quoted.write s
  | .arr _ | .obj _ => []

/-! ## One line -/

mutual

/-- A document on one line. -/
def compact : Json → List Char
  | .arr [] => ['[', ']']
  | .arr (item :: items) => '[' :: (compact item ++ compactItems items)
  | .obj [] => ['{', '}']
  | .obj ((key, value) :: members) =>
    '{' :: (Quoted.write key ++ ':' :: (compact value ++ compactMembers members))
  | scalar => scalar.scalarText
termination_by structural value => value

/-- The items after the first, and the end of the array. -/
def compactItems : List Json → List Char
  | [] => [']']
  | item :: items => ',' :: (compact item ++ compactItems items)
termination_by structural items => items

/-- The members after the first, and the end of the object. -/
def compactMembers : List (String × Json) → List Char
  | [] => ['}']
  | (key, value) :: members =>
    ',' :: (Quoted.write key ++ ':' :: (compact value ++ compactMembers members))
termination_by structural members => members

end

/-! ## Indented -/

/-- A line break and the indentation of a level. -/
def newLine (level : Nat) : List Char := '\n' :: List.replicate (2 * level) ' '

mutual

/-- A document whose lines after the first are indented for what stands at `level`. -/
def pretty (level : Nat) : Json → List Char
  | .arr [] => ['[', ']']
  | .arr (item :: items) =>
    '[' :: (newLine (level + 1) ++ (pretty (level + 1) item ++ prettyItems level items))
  | .obj [] => ['{', '}']
  | .obj ((key, value) :: members) =>
    '{' :: (newLine (level + 1) ++ (Quoted.write key ++ ':' :: ' ' ::
      (pretty (level + 1) value ++ prettyMembers level members)))
  | scalar => scalar.scalarText
termination_by structural value => value

/-- The items after the first, and the end of the array. -/
def prettyItems (level : Nat) : List Json → List Char
  | [] => newLine level ++ [']']
  | item :: items =>
    ',' :: (newLine (level + 1) ++ (pretty (level + 1) item ++ prettyItems level items))
termination_by structural items => items

/-- The members after the first, and the end of the object. -/
def prettyMembers (level : Nat) : List (String × Json) → List Char
  | [] => newLine level ++ ['}']
  | (key, value) :: members =>
    ',' :: (newLine (level + 1) ++ (Quoted.write key ++ ':' :: ' ' ::
      (pretty (level + 1) value ++ prettyMembers level members)))
termination_by structural members => members

end

end Json

end SiblingQuery
