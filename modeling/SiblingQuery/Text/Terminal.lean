/-!
# What a terminal shows

A text may hold control sequences for a terminal: they begin with the escape character and end as
their kind says.  `Text.shown` keeps what is to be read of a text, its printable characters and its
blanks, and drops control sequences and all other control characters.

A line end inside a control sequence breaks it off and is kept, except inside the sequences that
carry a string of their own: these run on to their end, or to the end of the text.
-/

namespace SiblingQuery

namespace Text

/-- Where a text stands in a control sequence. -/
inductive TerminalState where
  /-- Outside. -/
  | ground
  /-- After the escape character. -/
  | escape
  /-- Among the intermediate characters of a short sequence. -/
  | shortSequence
  /-- In a sequence with parameters. -/
  | sequence
  /-- At the parameters of a device string. -/
  | deviceStart | deviceParameters | deviceIntermediate
  /-- In the body of a device string. -/
  | deviceString
  /-- In a string for the operating system, which a bell ends too. -/
  | systemString
  /-- In another string. -/
  | otherString
deriving DecidableEq, Repr, Inhabited

namespace TerminalState

/-- A control character that stays as a blank. -/
def isBlankControl (c : Char) : Bool := c = '\t' || c = '\n' || c = '\x0c' || c = '\r'

/-- The code of a character lies in a range. -/
def within (c : Char) (low high : Nat) : Bool := low ≤ c.toNat && c.toNat ≤ high

/-- One of the octets of a character is the string terminator. -/
def hasTerminator (c : Char) : Bool := c.toString.toUTF8.data.any (· = 0x9C)

/-- Inside a sequence: a control character that stays as a blank breaks it off. -/
def inside (state : TerminalState) (c : Char) (next : TerminalState) : TerminalState × Bool :=
  if isBlankControl c then (.ground, true)
  else if within c 0x20 0x7E then (next, false)
  else (state, false)

/-- Where the text stands after a character, and whether the character is kept. -/
def step (state : TerminalState) (c : Char) : TerminalState × Bool :=
  if c = '\x18' || c = '\x1a' then (.ground, false)
  else if c = '\x1b' then (.escape, false)
  else
    match state with
    | .ground => (.ground, isBlankControl c || (0x20 ≤ c.toNat && c.toNat ≠ 0x7F))
    | .escape =>
      inside state c <|
        if within c 0x20 0x2F then .shortSequence
        else
          match c with
          | '[' => .sequence
          | ']' => .systemString
          | 'P' => .deviceStart
          | 'X' | '^' | '_' => .otherString
          | _ => .ground
    | .shortSequence => inside state c (if within c 0x20 0x2F then state else .ground)
    | .sequence => inside state c (if within c 0x20 0x3F then state else .ground)
    | .deviceStart =>
      if within c 0x20 0x2F then (.deviceIntermediate, false)
      else if c = ':' || within c 0x40 0x7E then (.deviceString, false)
      else if within c 0x30 0x3F then (.deviceParameters, false)
      else (state, false)
    | .deviceParameters =>
      if within c 0x20 0x2F then (.deviceIntermediate, false)
      else if within c 0x30 0x39 || c = ';' then (state, false)
      else if within c 0x30 0x7E then (.deviceString, false)
      else (state, false)
    | .deviceIntermediate =>
      if within c 0x30 0x7E then (.deviceString, false) else (state, false)
    | .deviceString | .otherString => (if hasTerminator c then .ground else state, false)
    | .systemString => (if c = '\x07' then .ground else state, false)

end TerminalState

/-- What is kept of some characters. -/
def shownFrom : TerminalState → List Char → List Char
  | _, [] => []
  | state, c :: rest =>
    match state.step c with
    | (next, true) => c :: shownFrom next rest
    | (next, false) => shownFrom next rest

/-- What a terminal shows of a text. -/
def shown (text : String) : String := String.ofList (shownFrom .ground text.toList)

end Text

end SiblingQuery
