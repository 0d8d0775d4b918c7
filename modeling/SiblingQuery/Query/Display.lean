import SiblingQuery.Json.Printer
import SiblingQuery.Query.Test
import SiblingQuery.Text.Unprintable

/-!
# Tests as text

`Test.display` shows a test for diagnosis: the name of each kind of test with its arguments in
parentheses, values with the names of their kinds, and texts between double quotes.  In a quoted
text the quote, the backslash, the line controls and zero have short escapes, and every other
character that cannot be shown stands by its code point, as in `\\u{200b}`.
-/

namespace SiblingQuery

namespace Text

/-- How a character is shown inside quotes. -/
def displayChar (c : Char) : List Char :=
  if c = '"' then ['\\', '"']
  else if c = '\\' then ['\\', '\\']
  else if c = '\n' then ['\\', 'n']
  else if c = '\r' then ['\\', 'r']
  else if c = '\t' then ['\\', 't']
  else if c = '\x00' then ['\\', '0']
  else if isUnprintable c then '\\' :: 'u' :: '\x7b' :: (Nat.toDigits 16 c.toNat ++ ['\x7d'])
  else [c]

/-- A text between quotes. -/
def display (text : String) : List Char :=
  '"' :: (text.toList.flatMap displayChar ++ ['"'])

/-- Items between commas. -/
def commaSeparated : List (List Char) → List Char
  | [] => []
  | [item] => item
  | item :: items => item ++ ',' :: ' ' :: commaSeparated items

end Text

namespace Json

mutual

/-- A value with the names of the kinds of its parts. -/
def display : Json → List Char
  | .null => "Null".toList
  | .bool b => "Bool(".toList ++ (if b then "true" else "false").toList ++ [')']
  | .num n => "Number(".toList ++ n.write doubleNotation ++ [')']
  | .str s => "String(".toList ++ Text.display s ++ [')']
  | .arr items => "Array [".toList ++ Text.commaSeparated (displayItems items) ++ [']']
  | .obj members =>
    "Object \x7b".toList ++ Text.commaSeparated (displayMembers members) ++ ['\x7d']
termination_by structural value => value

/-- Every item of an array. -/
def displayItems : List Json → List (List Char)
  | [] => []
  | item :: items => display item :: displayItems items
termination_by structural items => items

/-- Every member of an object, the key between quotes. -/
def displayMembers : List (String × Json) → List (List Char)
  | [] => []
  | (key, value) :: members =>
    (Text.display key ++ ':' :: ' ' :: display value) :: displayMembers members
termination_by structural members => members

end

end Json

namespace Test

mutual

/-- A test as text. -/
def display : Test → List Char
  | .any => "Any".toList
  | .kind name => "Type(".toList ++ Text.display name ++ [')']
  | .attributes members =>
    "Attributes(\x7b".toList ++ Text.commaSeparated (Json.displayMembers members) ++ ['\x7d', ')']
  | .predicate _ => "Predicate(..)".toList
  | .node expected => "Node(".toList ++ Text.display expected.node.kind ++ [')']
  | .anyOf tests => "AnyOf([".toList ++ Text.commaSeparated (displayList tests) ++ [']', ')']
termination_by structural test => test

/-- Every test of a list. -/
def displayList : List Test → List (List Char)
  | [] => []
  | test :: tests => display test :: displayList tests
termination_by structural tests => tests

end

end Test

end SiblingQuery
