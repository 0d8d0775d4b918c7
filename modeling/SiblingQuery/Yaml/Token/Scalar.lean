import SiblingQuery.Json.Quoted
import SiblingQuery.Yaml.Cursor

/-!
# Reading scalars

The five ways to write a scalar, each as a function from the place where the scalar begins to its
text and the place after it.  Plain and quoted scalars fold the line ends in them; block scalars
keep or fold them line by line and chop their tail as their header says.

`none` is a scalar that breaks off, is indented by a tab, or holds an unknown escape.
-/

namespace SiblingQuery

namespace Yaml

namespace Scalar

/-! ## Plain scalars -/

/-- The piece of a plain scalar up to a blank, a line end or an indicator that ends the scalar.  In
brackets a colon right before another indicator is refused. -/
def plainPiece (inFlow : Bool) : List Char → Option (List Char)
  | [] => some []
  | ch :: rest =>
    let follows (test : Char → Bool) := match rest with | c :: _ => test c | [] => false
    let endsHere := match rest with | c :: _ => isSpace c | [] => true
    if isSpace ch then some []
    else if inFlow && ch = ':' && follows fun c => isFlowIndicator c || c = '?' then none
    else if (ch = ':' && endsHere) || (inFlow && isFlowIndicator ch) then some []
    else (plainPiece inFlow rest).map (ch :: ·)

/-- A plain scalar that has been read: its text, the place after it, and whether a line has ended
since its last piece. -/
structure Plain where
  text : List Char
  cursor : Cursor
  lineEnded : Bool
deriving Repr, Inhabited

/-- A plain scalar with text in front. -/
def Plain.append (text : List Char) (plain : Plain) : Plain :=
  { plain with text := text ++ plain.text }

/-- Reads on after a gap: the gap counts as text only if another piece follows it. -/
def plainFrom (inFlow : Bool) (margin : Nat) : Nat → Gap → Cursor → Option Plain
  | 0, gap, c => some ⟨[], c, gap.broken⟩
  | fuel + 1, gap, c =>
    if c.atDocumentMark || c.next (· = '#') then some ⟨[], c, gap.broken⟩
    else
      match plainPiece inFlow c.text with
      | none => none
      | some [] => some ⟨[], c, gap.broken⟩
      | some piece =>
        let c := c.advance piece.length
        let more :=
          if !c.next isSpace then some ⟨[], c, false⟩
          else
            match Gap.read margin {} c with
            | none => none
            | some (gap, c) =>
              if !inFlow && c.column < margin then some ⟨[], c, gap.broken⟩
              else plainFrom inFlow margin fuel gap c
        more.map (Plain.append (gap.folded ++ piece))

/-- A plain scalar whose further lines have to be indented to `margin`. -/
def plain? (inFlow : Bool) (margin : Nat) (c : Cursor) : Option Plain :=
  plainFrom inFlow margin (c.size + 1) {} c

/-! ## Quoted scalars -/

/-- A piece of a quoted scalar: its text, how much of the line it takes, and whether it ends with
a backslash before the end of the line. -/
structure Piece where
  text : List Char
  length : Nat
  escapedBreak : Bool
deriving Repr, Inhabited

namespace Piece

/-- A piece with another character in front, which takes `length` places of the line. -/
def cons (c : Char) (length : Nat) (piece : Piece) : Piece :=
  { piece with text := c :: piece.text, length := piece.length + length }

end Piece

/-- The piece of a single-quoted scalar up to a blank, a line end or the closing quote; a doubled
quote stands for one. -/
def singlePiece : List Char → Piece
  | '\'' :: '\'' :: rest => (singlePiece rest).cons '\'' 2
  | '\'' :: _ => ⟨[], 0, false⟩
  | c :: rest => if isSpace c then ⟨[], 0, false⟩ else (singlePiece rest).cons c 1
  | [] => ⟨[], 0, false⟩

/-- The character that a one-letter escape stands for. -/
def escaped? : Char → Option Char
  | '0' => some '\x00'
  | 'a' => some '\x07'
  | 'b' => some '\x08'
  | 't' | '\t' => some '\t'
  | 'n' => some '\n'
  | 'v' => some '\x0b'
  | 'f' => some '\x0c'
  | 'r' => some '\r'
  | 'e' => some '\x1b'
  | ' ' => some ' '
  | '"' => some '"'
  | '/' => some '/'
  | '\\' => some '\\'
  | 'N' => some '\u0085'
  | '_' => some '\u00a0'
  | 'L' => some '\u2028'
  | 'P' => some '\u2029'
  | _ => none

/-- The character that hexadecimal digits stand for; a surrogate is none. -/
def charOfHex? (digits : List Char) : Option Char :=
  match hexNumber? digits with
  | some n => if n.isValidChar then some (Char.ofNat n) else none
  | none => none

/-- The piece of a double-quoted scalar up to a blank, a line end or the closing quote. -/
def doublePiece : List Char → Option Piece
  | '"' :: _ => some ⟨[], 0, false⟩
  | '\\' :: 'x' :: a :: b :: rest =>
    match charOfHex? [a, b], doublePiece rest with
    | some c, some piece => some (piece.cons c 4)
    | _, _ => none
  | '\\' :: 'u' :: a :: b :: c :: d :: rest =>
    match charOfHex? [a, b, c, d], doublePiece rest with
    | some c, some piece => some (piece.cons c 6)
    | _, _ => none
  | '\\' :: 'U' :: a :: b :: c :: d :: e :: f :: g :: h :: rest =>
    match charOfHex? [a, b, c, d, e, f, g, h], doublePiece rest with
    | some c, some piece => some (piece.cons c 10)
    | _, _ => none
  | '\\' :: e :: rest =>
    if isBreak e then some ⟨[], 0, true⟩
    else
      match escaped? e, doublePiece rest with
      | some c, some piece => some (piece.cons c 2)
      | _, _ => none
  | c :: rest =>
    if isSpace c then some ⟨[], 0, false⟩
    else if c = '\\' then none
    else (doublePiece rest).map (·.cons c 1)
  | [] => some ⟨[], 0, false⟩

/-- Reads on inside quotes, up to the closing one. -/
def quotedFrom (single : Bool) : Nat → Cursor → Option (List Char × Cursor)
  | 0, _ => none
  | fuel + 1, c =>
    if c.atDocumentMark || c.text = [] then none
    else
      match (if single then some (singlePiece c.text) else doublePiece c.text) with
      | none => none
      | some piece =>
        let c := c.advance piece.length
        let c := if piece.escapedBreak then (c.advance 1).nextLine else c
        if c.next (· = if single then '\'' else '"') then some (piece.text, c.advance 1)
        else
          match Gap.read 0 { broken := piece.escapedBreak } c with
          | none => none
          | some (gap, c) =>
            (quotedFrom single fuel c).map fun (text, c) => (piece.text ++ gap.folded ++ text, c)

/-- A quoted scalar, from its opening quote. -/
def quoted? (single : Bool) (c : Cursor) : Option (List Char × Cursor) :=
  quotedFrom single (c.size + 1) (c.advance 1)

/-! ## Block scalars -/

/-- What becomes of the line ends at the tail of a block scalar. -/
inductive Chomping where
  | strip
  | clip
  | keep
deriving DecidableEq, Repr, Inhabited

/-- The chomping that an indicator asks for. -/
def chomping? : Char → Option Chomping
  | '+' => some .keep
  | '-' => some .strip
  | _ => none

/-- The header of a block scalar after its indicator: chomping and explicit indentation, in either
order, up to the end of the line. -/
def blockHeader? (c : Cursor) : Option (Chomping × Nat × Cursor) :=
  let chomp (c : Cursor) : Option Chomping × Cursor :=
    match c.text with
    | ch :: _ => match chomping? ch with
      | some chomping => (some chomping, c.advance 1)
      | none => (none, c)
    | [] => (none, c)
  let indent (c : Cursor) : Option (Nat × Cursor) :=
    match c.text with
    | ch :: _ =>
      if ch = '0' then none
      else if ch.isDigit then some (ch.toNat - 48, c.advance 1)
      else some (0, c)
    | [] => some (0, c)
  let (first, c) := chomp c
  match indent c with
  | none => none
  | some (increment, c) =>
    let (second, c) := if first.isNone && increment ≠ 0 then chomp c else (none, c)
    let chomping := (first.or second).getD .clip
    c.endLine?.map fun c => (chomping, increment, c)

/-- Blank lines before a line of a block scalar. -/
structure Lead where
  /-- The ends of the blank lines. -/
  breaks : List Char
  /-- The widest indentation seen. -/
  widest : Nat
  cursor : Cursor
deriving Repr, Inhabited

/-- Reads indentation, at most `indent` wide or without a bound if that is not known, and blank
lines.  A tab where indentation may still come is refused. -/
def leadFrom (indent : Option Nat) : Nat → List Char → Nat → Cursor → Option Lead
  | 0, breaks, widest, c => some ⟨breaks, widest, c⟩
  | fuel + 1, breaks, widest, c =>
    let blanks := (c.text.takeWhile (· = ' ')).length
    let taken := match indent with
      | none => blanks
      | some indent => min blanks (indent - c.column)
    let c := c.advance taken
    let widest := max widest c.column
    let mayIndent := match indent with
      | none => true
      | some indent => decide (c.column < indent)
    if mayIndent && c.next (· = '\t') then none
    else if c.next isBreak then
      let (ending, c) := c.lineEnd
      leadFrom indent fuel (breaks ++ ending) widest c
    else some ⟨breaks, widest, c⟩

/-- Reads what stands before a line of a block scalar. -/
def lead? (indent : Option Nat) (c : Cursor) : Option Lead :=
  leadFrom indent (c.spaces + 1) [] 0 c

/-- The lines of a block scalar. -/
structure Block where
  /-- The lines, joined, without the last line end. -/
  text : List Char
  /-- The last line end. -/
  ending : List Char
  /-- What stands between the last line and the next token. -/
  tail : Lead
deriving Repr, Inhabited

/-- Lines with text in front. -/
def Block.append (text : List Char) (block : Block) : Block :=
  { block with text := text ++ block.text }

/-- Reads the lines of a block scalar.  `ending` is the end of the line before and `lead` the
blank lines since; `blankBefore` says that the line before began with a blank. -/
def blockLines (folded : Bool) (indent : Nat) :
    Nat → List Char → Lead → Bool → Option Block
  | 0, ending, lead, _ => some ⟨[], ending, lead⟩
  | fuel + 1, ending, lead, blankBefore =>
    let c := lead.cursor
    if c.column ≠ indent || c.text = [] then some ⟨[], ending, lead⟩
    else
      let blankHere := c.next isBlank
      let joint :=
        if folded && ending = ['\n'] && !blankBefore && !blankHere then
          if lead.breaks = [] then [' '] else []
        else ending
      let (line, c) := c.run (!isBreak ·)
      let (ending, c) := c.lineEnd
      match lead? (some indent) c with
      | none => none
      | some next =>
        (blockLines folded indent fuel ending next blankHere).map
          (Block.append (joint ++ lead.breaks ++ line))

/-- A block scalar, from its indicator, inside a collection indented to `parent`. -/
def block? (folded : Bool) (parent : Int) (c : Cursor) : Option (List Char × Cursor) :=
  match blockHeader? (c.advance 1) with
  | none => none
  | some (chomping, increment, c) =>
    let known := if increment = 0 then none else some (parent.toNat + increment)
    match lead? known c with
    | none => none
    | some lead =>
      let indent := known.getD (max (max lead.widest (parent + 1).toNat) 1)
      (blockLines folded indent (c.size + 1) [] lead false).map
        fun block =>
          let text := match chomping with
            | .strip => block.text
            | .clip => block.text ++ block.ending
            | .keep => block.text ++ block.ending ++ block.tail.breaks
          (text, block.tail.cursor)

end Scalar

end Yaml

end SiblingQuery
