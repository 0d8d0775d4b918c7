import SiblingQuery.Json.Quoted
import SiblingQuery.Yaml.Resolve
import SiblingQuery.Yaml.Token.Scalar

/-!
# How a text is written as a scalar

A text has to read back as itself, so its looks decide how it may be written.  `Quoting.Shape`
collects what matters about a text, `Quoting.style` picks the style, and one function for each
style writes it:

* with a line feed in it, a text is a literal block;
* a text that would read back as something else than a text is put between single quotes;
* what has characters that cannot stand for themselves is put between double quotes with escapes;
* everything else is plain, or between single quotes where an indicator or a blank is in the way.
-/

namespace SiblingQuery

namespace Yaml

namespace Quoting

/-! ## The shape of a text -/

/-- A character that is written as itself.  Tabs and the byte order mark are not. -/
def isPrintable (c : Char) : Bool :=
  let n := c.toNat
  n = 0xA || (0x20 ≤ n && n ≤ 0x7E) || (0xA0 ≤ n && n ≤ 0xD7FF) ||
    (0xE000 ≤ n && n ≤ 0xFFFD && n ≠ 0xFEFF) || 0x10000 ≤ n

/-- Two neighbours in a text of which the first and the second satisfy a test. -/
def hasPair (first second : Char → Bool) : List Char → Bool
  | a :: b :: rest => (first a && second b) || hasPair first second (b :: rest)
  | _ => false

/-- A blank, a line end or the zero character. -/
def isGap (c : Char) : Bool := isSpace c || c = '\x00'

/-- The text ends, or a blank follows. -/
def beforeGap : List Char → Bool
  | [] => true
  | c :: _ => isGap c

/-- A colon at the end of a word. -/
def hasFinalColon : List Char → Bool
  | [] => false
  | c :: rest => (c = ':' && beforeGap rest) || hasFinalColon rest

/-- Begins with what has a meaning of its own there. -/
def beginsWithIndicator : List Char → Bool
  | [] => false
  | c :: rest =>
    isFlowIndicator c || "#&*!|>'\"%@".toList.contains c || c.toNat = 96 ||
      ((c = '?' || c = ':' || c = '-') && beforeGap rest) ||
      ['-', '-', '-'].isPrefixOf (c :: rest) || ['.', '.', '.'].isPrefixOf (c :: rest)

/-- Holds or begins with what outside brackets is not plain text. -/
def hasIndicator (text : List Char) : Bool :=
  beginsWithIndicator text || hasFinalColon text || hasPair isGap (· = '#') text

/-- Begins with a character that satisfies a test. -/
def beginsWith (test : Char → Bool) : List Char → Bool
  | [] => false
  | c :: _ => test c

/-- Ends with a character that satisfies a test. -/
def endsWith (test : Char → Bool) (text : List Char) : Bool := beginsWith test text.reverse

/-- A blank right before a line end. -/
def hasBlankBeforeBreak (text : List Char) : Bool := hasPair (· = ' ') isBreak text

/-- A blank right after a line end. -/
def hasBlankAfterBreak (text : List Char) : Bool := hasPair isBreak (· = ' ') text

/-- Every character is written as itself and no blank stands before a line end. -/
def isClean (text : List Char) : Bool := text.all isPrintable && !hasBlankBeforeBreak text

/-- May be written plain outside brackets. -/
def allowsPlain (text : List Char) : Bool :=
  isClean text && !text.any isBreak && !hasIndicator text &&
    !beginsWith (· = ' ') text && !endsWith (· = ' ') text

/-- May be written between single quotes. -/
def allowsSingle (text : List Char) : Bool := isClean text && !hasBlankAfterBreak text

/-- May be written as a block. -/
def allowsBlock (text : List Char) : Bool := isClean text && !endsWith (· = ' ') text

/-! ## The style of a text -/

/-- Read back plain, the text would not be a text.  Digits after a leading zero would, but other
readers of the format take them for numbers. -/
def looksTyped (text : String) : Bool :=
  Scalar.hasLeadingZero text.toList ||
    match Scalar.ofPlain? text with
    | some (.str _) => false
    | _ => true

/-- How a text is written.  A text that may be a simple key never becomes a block. -/
def style (text : String) : Style :=
  let chars := text.toList
  let quoted := if allowsSingle chars then Style.singleQuoted else Style.doubleQuoted
  if chars.any (· = '\n') then if allowsBlock chars then .literal else .doubleQuoted
  else if looksTyped text then quoted
  else if allowsPlain chars then .plain
  else quoted

/-! ## The text of each style -/

/-- Blanks up to a column. -/
def indentation (indent : Nat) : List Char := List.replicate indent ' '

/-- Inside single quotes: a quote is doubled, and after a line end comes the indentation. -/
def singleBody (indent : Nat) : Bool → List Char → List Char
  | afterBreak, [] => if afterBreak then indentation indent else []
  | afterBreak, c :: rest =>
    if isBreak c then c :: singleBody indent true rest
    else
      (if afterBreak then indentation indent else []) ++
        (if c = '\'' then ['\'', '\''] else [c]) ++ singleBody indent false rest

/-- A number in capital hexadecimal digits, padded with zeros to a width. -/
def hexText (width n : Nat) : List Char :=
  let digits := (Nat.toDigits 16 n).map Char.toUpper
  List.replicate (width - digits.length) '0' ++ digits

/-- The letter that escapes a character, if it has one. -/
def escapeLetter? (c : Char) : Option Char :=
  match c.toNat with
  | 0x00 => some '0'
  | 0x07 => some 'a'
  | 0x08 => some 'b'
  | 0x09 => some 't'
  | 0x0A => some 'n'
  | 0x0B => some 'v'
  | 0x0C => some 'f'
  | 0x0D => some 'r'
  | 0x1B => some 'e'
  | 0x22 => some '"'
  | 0x5C => some '\\'
  | 0x85 => some 'N'
  | 0xA0 => some '_'
  | 0x2028 => some 'L'
  | 0x2029 => some 'P'
  | _ => none

/-- How a character is written inside double quotes. -/
def doubleChar (c : Char) : List Char :=
  if isPrintable c && !isBreak c && c ≠ '"' && c ≠ '\\' then [c]
  else
    match escapeLetter? c with
    | some letter => ['\\', letter]
    | none =>
      let n := c.toNat
      if n ≤ 0xFF then '\\' :: 'x' :: hexText 2 n
      else if n ≤ 0xFFFF then '\\' :: 'u' :: hexText 4 n
      else '\\' :: 'U' :: hexText 8 n

/-- The header of a literal block: its indentation if the text begins with a blank or a line end,
and what becomes of the line ends at its tail. -/
def literalHeader (text : List Char) : List Char :=
  let indent := if beginsWith (fun c => c = ' ' || isBreak c) text then ['2'] else []
  let chomping :=
    match text.reverse with
    | [] => ['-']
    | [last] => if isBreak last then ['+'] else ['-']
    | last :: before :: _ =>
      if !isBreak last then ['-'] else if isBreak before then ['+'] else []
  '|' :: (indent ++ chomping)

/-- The lines of a literal block, each with a line end. -/
def literalBody (indent : Nat) : Bool → List Char → List Char
  | atStart, [] => if atStart then [] else ['\n']
  | atStart, c :: rest =>
    if isBreak c then c :: literalBody indent true rest
    else
      (if atStart then indentation indent else []) ++ c :: literalBody indent false rest

/-- A text in a style, up to the end of its last line; its further lines are indented. -/
def write (indent : Nat) (style : Style) (text : String) : List Char :=
  let chars := text.toList
  match style with
  | .plain => chars ++ ['\n']
  | .singleQuoted => '\'' :: (singleBody indent false chars ++ ['\'', '\n'])
  | .doubleQuoted => '"' :: (chars.flatMap doubleChar ++ ['"', '\n'])
  | .literal | .folded => literalHeader chars ++ '\n' :: literalBody indent true chars

/-- A key that may stand in front of its colon: one line, and at most 128 octets. -/
def isSimpleKey (key : String) : Bool := !key.toList.any isBreak && key.utf8ByteSize ≤ 128

/-- A simple key, without a line end. -/
def writeKey (key : String) : List Char :=
  match style key with
  | .plain => key.toList
  | .singleQuoted => '\'' :: (singleBody 0 false key.toList ++ ['\''])
  | _ => '"' :: (key.toList.flatMap doubleChar ++ ['"'])

end Quoting

end Yaml

end SiblingQuery
