/-!
# Layout of TOML text

Blanks, line breaks and comments.  A line break is a line feed, with or without a carriage return
before it; a carriage return alone is no layout and stands nowhere.  A comment runs from a number
sign to the end of its line and holds no control character but the tab.
-/

namespace SiblingQuery

namespace Toml

/-- A space or a tab. -/
def isBlank (c : Char) : Bool := c = ' ' || c = '\t'

/-- Every character but the control characters of ASCII; the tab is plain. -/
def isPlain (c : Char) : Bool := c = '\t' || (' ' ≤ c && c ≠ '\x7f')

/-- What follows blanks. -/
def skipBlanks (text : List Char) : List Char := text.dropWhile isBlank

/-- What follows a line break. -/
def afterBreak? : List Char → Option (List Char)
  | '\n' :: rest => some rest
  | '\r' :: '\n' :: rest => some rest
  | _ => none

/-- What follows the end of a line, before which blanks and a comment may stand.  The end of the
text ends its last line. -/
def afterLine? (text : List Char) : Option (List Char) :=
  let rest :=
    match skipBlanks text with
    | '#' :: comment => comment.dropWhile isPlain
    | rest => rest
  if rest = [] then some [] else afterBreak? rest

/-- What follows blanks, line breaks and comments; `none` when a comment holds what it must
not. -/
def afterLayout? (inComment : Bool) : List Char → Option (List Char)
  | [] => some []
  | '\r' :: '\n' :: rest => afterLayout? false rest
  | c :: rest =>
    if c = '\n' then afterLayout? false rest
    else if inComment then if isPlain c then afterLayout? true rest else none
    else if isBlank c then afterLayout? false rest
    else if c = '#' then afterLayout? true rest
    else some (c :: rest)

end Toml

end SiblingQuery
