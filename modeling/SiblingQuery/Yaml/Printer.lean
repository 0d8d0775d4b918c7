import SiblingQuery.Json.Printer
import SiblingQuery.Yaml.Quoting

/-!
# YAML text of a document

Documents are written in block layout.  A collection inside another is indented by two, except
that a sequence which is the value of a key stands in the key's own column; the first entry of a
collection inside a sequence stands on the line of its hyphen.  Empty collections are `[]` and
`{}`.  A key that is long or has more than one line is introduced by a question mark.

Every function here writes whole lines: its text ends with the end of a line, and does not begin
with the indentation of its first line.
-/

namespace SiblingQuery

namespace Yaml

open Quoting (indentation)

/-- In YAML text an exponent has a sign only if it is negative. -/
def doubleNotation : DoubleNotation := ⟨[]⟩

/-- A value that is neither a mapping nor a sequence with anything in it, to the end of its last
line. -/
def scalarText (indent : Nat) : Json → List Char
  | .null => "null\n".toList
  | .bool true => "true\n".toList
  | .bool false => "false\n".toList
  | .num n => n.write doubleNotation ++ ['\n']
  | .str s => Quoting.write indent (Quoting.style s) s
  | .arr _ => "[]\n".toList
  | .obj _ => "\x7b\x7d\n".toList

/-- A key in column `indent` with the colon after it.  A key that is not simple stands by itself
after a question mark, and its colon begins a line. -/
def keyText (indent : Nat) (key : String) : List Char :=
  if Quoting.isSimpleKey key then Quoting.writeKey key ++ [':']
  else
    '?' :: ' ' :: (Quoting.write (indent + 2) (Quoting.style key) key ++
      (indentation indent ++ [':']))

mutual

/-- A value after the hyphen, question mark or colon in column `indent` that introduces it.
`onKeyLine` says that it was the colon of a simple key, whose line a block collection leaves. -/
def valueText (indent : Nat) (onKeyLine : Bool) : Json → List Char
  | .arr (item :: items) =>
    if onKeyLine then
      '\n' :: (indentation indent ++
        '-' :: (valueText indent false item ++ furtherItems indent items))
    else
      ' ' :: '-' :: (valueText (indent + 2) false item ++ furtherItems (indent + 2) items)
  | .obj ((key, value) :: members) =>
    (if onKeyLine then '\n' :: indentation (indent + 2) else [' ']) ++
      (keyText (indent + 2) key ++ (valueText (indent + 2) (Quoting.isSimpleKey key) value ++
        furtherMembers (indent + 2) members))
  | scalar => ' ' :: scalarText (indent + 2) scalar
termination_by structural value => value

/-- The items after the first of a sequence in column `indent`. -/
def furtherItems (indent : Nat) : List Json → List Char
  | [] => []
  | item :: items =>
    indentation indent ++ '-' :: (valueText indent false item ++ furtherItems indent items)
termination_by structural items => items

/-- The members after the first of a mapping in column `indent`. -/
def furtherMembers (indent : Nat) : List (String × Json) → List Char
  | [] => []
  | (key, value) :: members =>
    indentation indent ++ (keyText indent key ++
      (valueText indent (Quoting.isSimpleKey key) value ++ furtherMembers indent members))
termination_by structural members => members

end

/-- A list of documents as one sequence. -/
def sequenceText : List Json → List Char
  | [] => "[]\n".toList
  | item :: items => '-' :: (valueText 0 false item ++ furtherItems 0 items)

end Yaml

end SiblingQuery
