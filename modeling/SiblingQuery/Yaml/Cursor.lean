/-!
# Reading YAML text line by line

A `Cursor` is what remains of a text together with where it stands: how many octets of its UTF-8
form have been read, on which line and in which column.  Columns decide the structure of a block
document, so every reader here moves a cursor and never cuts text on its own.

A line ends with a carriage return, a line feed, both, a next-line control or one of the two
Unicode separators.  Read as content, the separators stay and every other ending is a line feed.
-/

namespace SiblingQuery

namespace Yaml

/-! ## Character classes -/

/-- A character that YAML text may contain. -/
def isAllowed (c : Char) : Bool :=
  let n := c.toNat
  n = 0x9 || n = 0xA || n = 0xD || (0x20 ≤ n && n ≤ 0x7E) || n = 0x85 ||
    (0xA0 ≤ n && n ≤ 0xD7FF) || (0xE000 ≤ n && n ≤ 0xFFFD) || 0x10000 ≤ n

/-- A blank inside a line. -/
def isBlank (c : Char) : Bool := c = ' ' || c = '\t'

/-- A character that ends a line. -/
def isBreak (c : Char) : Bool :=
  c = '\n' || c = '\r' || c = '\u0085' || c = '\u2028' || c = '\u2029'

/-- A character that ends a word: a blank or the end of a line. -/
def isSpace (c : Char) : Bool := isBlank c || isBreak c

/-- A character of names: of anchors, tag handles and directives. -/
def isNameChar (c : Char) : Bool := c.isAlphanum || c = '_' || c = '-'

/-- A character that opens, closes or separates inside brackets. -/
def isFlowIndicator (c : Char) : Bool := c = ',' || c = '[' || c = ']' || c = '\x7b' || c = '\x7d'

/-! ## Cursors -/

/-- What remains of a text, and where it stands. -/
structure Cursor where
  text : List Char
  /-- How many octets have been read. -/
  index : Nat
  line : Nat
  column : Nat
  /-- How long the whole text is, which bounds every loop over what remains of it. -/
  size : Nat
deriving Repr, Inhabited

namespace Cursor

/-- How many octets some characters take. -/
def octetCount (chars : List Char) : Nat := chars.foldl (fun n ch => n + ch.utf8Size) 0

/-- The start of a text. -/
def start (text : List Char) : Cursor := ⟨text, 0, 0, 0, text.length⟩

/-- The same place a number of characters further on the line. -/
def advance (c : Cursor) (count : Nat) : Cursor :=
  { c with
    text := c.text.drop count
    index := c.index + octetCount (c.text.take count)
    column := c.column + count }

/-- The next character satisfies a test. -/
def next (c : Cursor) (test : Char → Bool) : Bool :=
  match c.text with
  | ch :: _ => test ch
  | [] => false

/-- The character a number of places ahead satisfies a test; past the end none does. -/
def ahead (c : Cursor) (count : Nat) (test : Char → Bool) : Bool :=
  match c.text.drop count with
  | ch :: _ => test ch
  | [] => false

/-- The text ends, or a blank or line end comes, a number of places ahead. -/
def spaceAhead (c : Cursor) (count : Nat) : Bool :=
  match c.text.drop count with
  | ch :: _ => isSpace ch
  | [] => true

/-- The longest run of characters that satisfy a test which no line end satisfies, and the place
after it. -/
def run (c : Cursor) (test : Char → Bool) : List Char × Cursor :=
  let taken := c.text.takeWhile test
  (taken, c.advance taken.length)

/-- The place after a run. -/
def skip (c : Cursor) (test : Char → Bool) : Cursor := (c.run test).2

/-- How many blanks and line ends come next. -/
def spaces (c : Cursor) : Nat := (c.text.takeWhile isSpace).length

/-- The start of the next line, where `rest` remains after a line end of `count` octets. -/
def breakLine (c : Cursor) (count : Nat) (rest : List Char) : Cursor :=
  { c with text := rest, index := c.index + count, line := c.line + 1, column := 0 }

/-- The line end that comes next, as content, and the start of the next line. -/
def lineEnd (c : Cursor) : List Char × Cursor :=
  match c.text with
  | '\r' :: '\n' :: rest => (['\n'], c.breakLine 2 rest)
  | ch :: rest =>
    if isBreak ch then
      (if ch = '\u2028' ∨ ch = '\u2029' then [ch] else ['\n'], c.breakLine ch.utf8Size rest)
    else ([], c)
  | [] => ([], c)

/-- The start of the next line. -/
def nextLine (c : Cursor) : Cursor := c.lineEnd.2

/-- A mark of three characters in the first column, with nothing or a blank after it. -/
def atMark (c : Cursor) (mark : Char) : Bool :=
  c.column = 0 && c.text.take 3 = [mark, mark, mark] && c.spaceAhead 3

/-- The start or the end of a document is marked here. -/
def atDocumentMark (c : Cursor) : Bool := c.atMark '-' || c.atMark '.'

/-- Skips blanks and a comment and the end of the line; anything else on the line is refused. -/
def endLine? (c : Cursor) : Option Cursor :=
  let c := c.skip isBlank
  let c := if c.next (· = '#') then c.skip (!isBreak ·) else c
  if c.text = [] then some c
  else if c.next isBreak then some c.nextLine
  else none

end Cursor

/-! ## Gaps in a scalar -/

/-- Blanks and line ends between two pieces of a scalar.  Before the first line end the blanks are
content; after it they are indentation. -/
structure Gap where
  blanks : List Char := []
  /-- A line has ended in the gap. -/
  broken : Bool := false
  /-- The first line end. -/
  first : List Char := []
  /-- The line ends after the first. -/
  others : List Char := []
deriving Repr, Inhabited

namespace Gap

/-- What a gap stands for: a single line feed is folded into a blank, and of several the first is
dropped. -/
def folded (gap : Gap) : List Char :=
  if gap.broken then
    if gap.first = ['\n'] then (if gap.others = [] then [' '] else gap.others)
    else gap.first ++ gap.others
  else gap.blanks

/-- Reads blanks and line ends onto a gap, at most `count` of them.  With a `margin`, a tab that
stands left of it on a new line is refused. -/
def readUpTo (margin : Nat) : Nat → Gap → Cursor → Option (Gap × Cursor)
  | 0, gap, c => some (gap, c)
  | count + 1, gap, c =>
    match c.text with
    | ch :: _ =>
      if isBlank ch then
        if gap.broken then
          if c.column < margin ∧ ch = '\t' then none else readUpTo margin count gap (c.advance 1)
        else readUpTo margin count { gap with blanks := gap.blanks ++ [ch] } (c.advance 1)
      else if isBreak ch then
        let (ending, c) := c.lineEnd
        if gap.broken then readUpTo margin count { gap with others := gap.others ++ ending } c
        else readUpTo margin count { gap with blanks := [], broken := true, first := ending } c
      else some (gap, c)
    | [] => some (gap, c)

/-- Reads all blanks and line ends that come next onto a gap. -/
def read (margin : Nat) (gap : Gap) (c : Cursor) : Option (Gap × Cursor) :=
  readUpTo margin c.spaces gap c

end Gap

end Yaml

end SiblingQuery
