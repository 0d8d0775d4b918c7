import SiblingQuery.Yaml.Token
import SiblingQuery.Yaml.Token.Scalar
import SiblingQuery.Yaml.Token.Tag

/-!
# From YAML text to tokens

`Token.scan` cuts a whole text into tokens.  Two things make it more than a list of patterns.

* *Indentation.*  Outside brackets, a token left of the current indentation closes block
  collections, and an entry or key right of it opens one.
* *Simple keys.*  Whether a scalar is a key is known only when a colon follows it.  Wherever a key
  could begin, a candidate is noted together with the number of tokens before it; if the colon
  comes on the same line and within 1024 octets, the key token, and if need be the start of a
  block mapping, is put in front of the candidate after the fact.

There is one candidate for the block level and one for each open bracket.
-/

namespace SiblingQuery

namespace Yaml

/-- A place where a simple key may have begun. -/
structure Candidate where
  /-- The place is a first key of its collection, so a colon has to follow. -/
  required : Bool
  /-- How many tokens stand before it. -/
  position : Nat
  index : Nat
  line : Nat
  column : Nat
deriving Repr, Inhabited

/-- The state of the reader between two tokens. -/
structure Lexer where
  cursor : Cursor
  /-- The tokens so far, last first. -/
  tokens : List Token
  /-- How many tokens there are. -/
  count : Nat
  /-- The indentation of the innermost open block collection, `-1` at the top. -/
  indent : Int
  /-- The indentations around it. -/
  outer : List Int
  /-- The candidate of the block level. -/
  block : Option Candidate
  /-- The candidates of the open brackets, innermost first. -/
  brackets : List (Option Candidate)
  /-- A simple key may begin here. -/
  keyAllowed : Bool
deriving Repr, Inhabited

namespace Lexer

/-- Before the first token of a text. -/
def start (text : List Char) : Lexer :=
  ⟨Cursor.start text, [], 0, -1, [], none, [], true⟩

/-- Inside brackets. -/
def inFlow (s : Lexer) : Bool := !s.brackets.isEmpty

/-- Appends a token. -/
def emit (s : Lexer) (token : Token) : Lexer :=
  { s with tokens := token :: s.tokens, count := s.count + 1 }

/-- Puts a token behind the first `position` tokens. -/
def insertAt (s : Lexer) (position : Nat) (token : Token) : Lexer :=
  let after := s.count - position
  { s with
    tokens := s.tokens.take after ++ token :: s.tokens.drop after
    count := s.count + 1 }

/-! ## Candidates -/

/-- The candidate of the innermost level. -/
def candidate (s : Lexer) : Option Candidate :=
  match s.brackets with
  | [] => s.block
  | innermost :: _ => innermost

/-- Replaces the candidate of the innermost level. -/
def setCandidate (s : Lexer) (candidate : Option Candidate) : Lexer :=
  match s.brackets with
  | [] => { s with block := candidate }
  | _ :: others => { s with brackets := candidate :: others }

/-- A candidate that a colon can no longer reach: it is on an earlier line or too far back. -/
def isStale (s : Lexer) (candidate : Candidate) : Bool :=
  candidate.line < s.cursor.line || candidate.index + 1024 < s.cursor.index

/-- A candidate unless it is stale; a stale one that was required is refused. -/
def keepFresh? (s : Lexer) : Option Candidate → Option (Option Candidate)
  | none => some none
  | some candidate =>
    if s.isStale candidate then (if candidate.required then none else some none)
    else some (some candidate)

/-- Gives up stale candidates at every level. -/
def dropStale? (s : Lexer) : Option Lexer :=
  match s.keepFresh? s.block, s.brackets.mapM s.keepFresh? with
  | some block, some brackets => some { s with block, brackets }
  | _, _ => none

/-- Gives up the innermost candidate, because something else than a colon has come. -/
def dropCandidate? (s : Lexer) : Option Lexer :=
  match s.candidate with
  | some candidate => if candidate.required then none else some (s.setCandidate none)
  | none => some s

/-- Notes a candidate at this place, if a simple key may begin here. -/
def noteCandidate? (s : Lexer) : Option Lexer :=
  if !s.keyAllowed then some s
  else
    let here := s.cursor
    let required := !s.inFlow && s.indent = (here.column : Int)
    s.dropCandidate?.map fun s =>
      s.setCandidate (some ⟨required, s.count, here.index, here.line, here.column⟩)

/-! ## Indentation -/

/-- Closes the block collections that are indented further than `column`. -/
def unwindFrom (column : Int) (tokens : List Token) (count : Nat) (indent : Int) :
    List Int → List Token × Nat × Int × List Int
  | [] => (tokens, count, indent, [])
  | next :: outer =>
    if column < indent then unwindFrom column (.blockEnd :: tokens) (count + 1) next outer
    else (tokens, count, indent, next :: outer)

/-- Closes the block collections that are indented further than `column`; inside brackets
indentation means nothing. -/
def unwind (s : Lexer) (column : Int) : Lexer :=
  if s.inFlow then s
  else
    let (tokens, count, indent, outer) := unwindFrom column s.tokens s.count s.indent s.outer
    { s with tokens, count, indent, outer }

/-- Opens a block collection at `column` if it is indented further than the current one. -/
def open_ (s : Lexer) (column : Nat) (position : Option Nat) (token : Token) : Lexer :=
  if s.inFlow || !(s.indent < (column : Int)) then s
  else
    let s := { s with indent := column, outer := s.indent :: s.outer }
    match position with
    | none => s.emit token
    | some position => s.insertAt position token

/-! ## Between tokens -/

/-- Skips blanks, comments and line ends.  A tab is skipped only where no simple key may begin, and
outside brackets a new line lets one begin. -/
def skipFrom (inFlow : Bool) : Nat → Bool → Cursor → Bool × Cursor
  | 0, keyAllowed, c => (keyAllowed, c)
  | fuel + 1, keyAllowed, c =>
    let c := if c.column = 0 && c.next (· = '\ufeff') then c.advance 1 else c
    let c := c.skip fun ch => ch = ' ' || ((inFlow || !keyAllowed) && ch = '\t')
    let c := if c.next (· = '#') then c.skip (!isBreak ·) else c
    if c.next isBreak then skipFrom inFlow fuel (keyAllowed || !inFlow) c.nextLine
    else (keyAllowed, c)

/-- Goes to the next token. -/
def skip (s : Lexer) : Lexer :=
  let (keyAllowed, cursor) :=
    skipFrom s.inFlow (s.cursor.size + 1) s.keyAllowed s.cursor
  { s with keyAllowed, cursor }

/-! ## Single tokens -/

/-- Appends a token that takes `length` places of the line. -/
def take (s : Lexer) (length : Nat) (token : Token) : Lexer :=
  { s with cursor := s.cursor.advance length }.emit token

/-- The end of the text. -/
def streamEnd? (s : Lexer) : Option Lexer :=
  (s.unwind (-1)).dropCandidate?.map fun s => s.emit .streamEnd

/-- A directive. -/
def directive? (s : Lexer) : Option Lexer :=
  match (s.unwind (-1)).dropCandidate?, Tag.directive? s.cursor with
  | some s, some (directive, cursor) =>
    let token := match directive with
      | .version major minor => Token.version major minor
      | .tag handle expansion => Token.tagDirective handle expansion
    some ({ s with cursor, keyAllowed := false }.emit token)
  | _, _ => none

/-- The start or the end of a document. -/
def documentMark? (s : Lexer) (token : Token) : Option Lexer :=
  (s.unwind (-1)).dropCandidate?.map fun s => { s with keyAllowed := false }.take 3 token

/-- An opening bracket. -/
def openBracket? (s : Lexer) (token : Token) : Option Lexer :=
  s.noteCandidate?.map fun s =>
    { s with brackets := none :: s.brackets, keyAllowed := true }.take 1 token

/-- A closing bracket. -/
def closeBracket? (s : Lexer) (token : Token) : Option Lexer :=
  s.dropCandidate?.map fun s =>
    { s with brackets := s.brackets.drop 1, keyAllowed := false }.take 1 token

/-- A comma between brackets. -/
def flowEntry? (s : Lexer) : Option Lexer :=
  s.dropCandidate?.map fun s => { s with keyAllowed := true }.take 1 .flowEntry

/-- The hyphen of a block entry. -/
def blockEntry? (s : Lexer) : Option Lexer :=
  if !s.inFlow && !s.keyAllowed then none
  else
    (s.open_ s.cursor.column none .blockSequenceStart).dropCandidate?.map fun s =>
      { s with keyAllowed := true }.take 1 .blockEntry

/-- The question mark of a key. -/
def key? (s : Lexer) : Option Lexer :=
  if !s.inFlow && !s.keyAllowed then none
  else
    (s.open_ s.cursor.column none .blockMappingStart).dropCandidate?.map fun s =>
      { s with keyAllowed := !s.inFlow }.take 1 .key

/-- The colon of a value.  If it follows a candidate, that was a key. -/
def value? (s : Lexer) : Option Lexer :=
  match s.candidate with
  | some candidate =>
    let s := (s.insertAt candidate.position .key).open_ candidate.column
      (some candidate.position) .blockMappingStart
    some ({ s.setCandidate none with keyAllowed := false }.take 1 .value)
  | none =>
    if !s.inFlow && !s.keyAllowed then none
    else
      let s := s.open_ s.cursor.column none .blockMappingStart
      some ({ s with keyAllowed := !s.inFlow }.take 1 .value)

/-- An alias, an anchor or a tag, read by `read`. -/
def property? (s : Lexer) (read : Cursor → Option (Token × Cursor)) : Option Lexer :=
  match s.noteCandidate?, read s.cursor with
  | some s, some (token, cursor) => some ({ s with cursor, keyAllowed := false }.emit token)
  | _, _ => none

/-- A block scalar. -/
def blockScalar? (s : Lexer) (style : Style) : Option Lexer :=
  match s.dropCandidate?, Scalar.block? (style = .folded) s.indent s.cursor with
  | some s, some (text, cursor) =>
    some ({ s with cursor, keyAllowed := true }.emit (.scalar style (String.ofList text)))
  | _, _ => none

/-- A quoted scalar. -/
def quotedScalar? (s : Lexer) (style : Style) : Option Lexer :=
  s.property? fun c =>
    (Scalar.quoted? (style = .singleQuoted) c).map fun (text, c) =>
      (.scalar style (String.ofList text), c)

/-- A plain scalar.  After a line end at its tail a simple key may begin. -/
def plainScalar? (s : Lexer) : Option Lexer :=
  match s.noteCandidate?, Scalar.plain? s.inFlow (s.indent + 1).toNat s.cursor with
  | some s, some plain =>
    some ({ s with cursor := plain.cursor, keyAllowed := plain.lineEnded }.emit
      (.scalar .plain (String.ofList plain.text)))
  | _, _ => none

/-! ## The whole text -/

/-- A character that no plain scalar begins with, unless what follows allows it. -/
def isIndicator (c : Char) : Bool :=
  isFlowIndicator c || "-?:#&*!|>'\"%@".toList.contains c || c.toNat = 96

/-- A plain scalar begins here. -/
def startsPlain (s : Lexer) : Bool :=
  let c := s.cursor
  !(c.spaceAhead 0 || c.next isIndicator) ||
    (c.next (· = '-') && !c.ahead 1 isBlank) ||
    (!s.inFlow && c.next (fun ch => ch = '?' || ch = ':') && !c.spaceAhead 1)

/-- The token that begins here, where no blank is. -/
def token? (s : Lexer) : Option Lexer :=
  let c := s.cursor
  let spaceNext := c.spaceAhead 1
  match c.text with
  | [] => s.streamEnd?
  | ch :: _ =>
    if c.column = 0 && ch = '%' then s.directive?
    else if c.atMark '-' then s.documentMark? .documentStart
    else if c.atMark '.' then s.documentMark? .documentEnd
    else if ch = '[' then s.openBracket? .flowSequenceStart
    else if ch = '\x7b' then s.openBracket? .flowMappingStart
    else if ch = ']' then s.closeBracket? .flowSequenceEnd
    else if ch = '\x7d' then s.closeBracket? .flowMappingEnd
    else if ch = ',' then s.flowEntry?
    else if ch = '-' && spaceNext then s.blockEntry?
    else if ch = '?' && (s.inFlow || spaceNext) then s.key?
    else if ch = ':' && (s.inFlow || spaceNext) then s.value?
    else if ch = '*' then
      s.property? fun c => (Tag.name? c).map fun (name, c) => (.alias name, c)
    else if ch = '&' then
      s.property? fun c => (Tag.name? c).map fun (name, c) => (.anchor name, c)
    else if ch = '!' then
      s.property? fun c =>
        (Tag.tag? s.inFlow c).map fun (handle, suffix, c) => (.tag handle suffix, c)
    else if ch = '|' && !s.inFlow then s.blockScalar? .literal
    else if ch = '>' && !s.inFlow then s.blockScalar? .folded
    else if ch = '\'' then s.quotedScalar? .singleQuoted
    else if ch = '"' then s.quotedScalar? .doubleQuoted
    else if s.startsPlain then s.plainScalar?
    else none

/-- Goes to the next token and reads it. -/
def step? (s : Lexer) : Option Lexer :=
  s.skip.dropStale?.bind fun s => (s.unwind s.cursor.column).token?

/-- Reads tokens up to the end of the text. -/
def runFrom : Nat → Lexer → Option Lexer
  | 0, _ => none
  | fuel + 1, s =>
    match s.step? with
    | none => none
    | some next => if next.tokens.head? = some .streamEnd then some next else runFrom fuel next

end Lexer

/-- The tokens of a text, of which the last is the end of the stream. -/
def Token.scan (text : List Char) : Option (List Token) :=
  if text.all isAllowed then
    (Lexer.runFrom (text.length + 1) (Lexer.start text)).map fun s => s.tokens.reverse
  else none

end Yaml

end SiblingQuery
