import SiblingQuery.Regex.Bracket
import SiblingQuery.Text.Alphabetic

/-!
# Patterns as text

`Pattern.parse?` reads a pattern: characters, escapes, classes, groups, alternatives between bars,
and repetitions.  A text that is no pattern is refused, and so is a pattern that is nested too deeply
or would need too large an automaton.
-/

namespace SiblingQuery

namespace Regex

/-- A piece of a pattern and how deeply it is nested. -/
structure Part where
  pattern : Pattern
  depth : Nat := 0
  /-- The piece only sets flags, and cannot be repeated. -/
  isFlags : Bool := false
deriving DecidableEq, Repr, Inhabited

namespace Part

/-- Pieces one after another, the last of which comes first. -/
def sequence : List Part → Part
  | [] => ⟨.empty, 0, false⟩
  | [part] => { part with isFlags := false }
  | parts =>
    ⟨(parts.map (·.pattern)).foldl (fun after part => .seq part after) .empty,
      parts.foldl (fun depth part => max depth part.depth) 0 + 1, false⟩

/-- Pieces of which one is chosen, the last of which comes first. -/
def choice : Part → List Part → Part
  | part, [] => part
  | part, parts =>
    ⟨parts.foldl (fun after part => .alt part.pattern after) part.pattern,
      parts.foldl (fun depth part => max depth part.depth) part.depth + 1, false⟩

/-- A piece repeated. -/
def times (part : Part) (least : Nat) (most : Option Nat) : Part :=
  ⟨part.pattern.times least most, part.depth + 1, false⟩

end Part

/-! ## Counts -/

namespace Count

/-- A number of less than thirty-three bits with blanks around it, and what is left. -/
def number? (mode : Mode) (text : List Char) : Option (Nat × List Char) :=
  let (digits, left) := mode.collect Char.isDigit (text.dropWhile Text.isBlank)
  let value := digits.foldl (fun n c => 10 * n + (c.toNat - '0'.toNat)) 0
  if digits ≠ [] ∧ value < 0x100000000 then some (value, left.dropWhile Text.isBlank) else none

/-- How often something is repeated, after an opening brace, and what is left. -/
def read? (mode : Mode) (text : List Char) : Option ((Nat × Option Nat) × List Char) :=
  (number? mode (mode.skip text)).bind fun (least, text) =>
    match text with
    | '}' :: left => some ((least, some least), mode.skip left)
    | ',' :: rest =>
      match mode.skip rest with
      | '}' :: left => some ((least, none), mode.skip left)
      | rest =>
        match number? mode rest with
        | some (most, '}' :: left) =>
          if least ≤ most then some ((least, some most), mode.skip left) else none
        | _ => none
    | _ => none

end Count

/-- Without the mark after a repetition that asks for as few rounds as possible. -/
def pastLazyMark : List Char → List Char
  | '?' :: rest => rest
  | text => text

/-! ## Groups -/

/-- A character that the name of a group may start with. -/
def isNameStart (c : Char) : Bool := c = '_' || Text.isAlphabetic c

/-- A character that may follow in the name of a group. -/
def isNameRest (c : Char) : Bool :=
  c = '_' || c = '.' || c = '[' || c = ']' || Text.isAlphanumeric c

/-- The name of a group, which an angle bracket ends, and what is left. -/
def groupName? (text : List Char) : Option (List Char × List Char) :=
  let name := text.takeWhile (· ≠ '>')
  match name, text.dropWhile (· ≠ '>') with
  | c :: rest, '>' :: left =>
    if isNameStart c ∧ rest.all isNameRest then some (name, left) else none
  | _, _ => none

/-- What an opening parenthesis begins. -/
inductive Opening where
  /-- A group whose match can be asked for, by a name if there is one. -/
  | group (name : Option (List Char))
  /-- A group with a mode of its own. -/
  | plain (mode : Mode)
  /-- A change of mode for the rest of the group around. -/
  | flags (mode : Mode)
deriving Repr, Inhabited

/-- What begins after an opening parenthesis, and what is left.  Conditions on what is ahead or
behind are refused. -/
def opening? (mode : Mode) (text : List Char) : Option (Opening × List Char) :=
  match mode.skip text with
  | '?' :: '=' :: _ | '?' :: '!' :: _ | '?' :: '<' :: '=' :: _ | '?' :: '<' :: '!' :: _ => none
  | '?' :: 'P' :: '<' :: rest | '?' :: '<' :: rest =>
    (groupName? rest).map fun (name, left) => (.group (some name), left)
  | '?' :: rest =>
    let flags := rest.takeWhile fun c => c ≠ ':' && c ≠ ')'
    match rest.dropWhile fun c => c ≠ ':' && c ≠ ')' with
    | [] => none
    | c :: left =>
      (mode.change? true [] flags).bind fun changed =>
        if c = ':' then some (.plain changed, left)
        else if flags = [] then none
        else some (.flags changed, left)
  | text => some (.group none, text)

/-- A group that is being read.  The whole pattern counts as one. -/
structure Level where
  /-- The mode that comes back after the group. -/
  outside : Mode
  /-- The match of the group can be asked for. -/
  isCaptured : Bool
  /-- The alternatives before the last bar, the last one first. -/
  done : List Part := []
  /-- The pieces since, the last one first. -/
  parts : List Part := []
deriving Repr, Inhabited

namespace Level

/-- Adds a piece. -/
def add (level : Level) (part : Part) : Level := { level with parts := part :: level.parts }

/-- Goes on after a bar. -/
def split (level : Level) : Level :=
  { level with done := Part.sequence level.parts :: level.done, parts := [] }

/-- What has been read, as one piece. -/
def gathered (level : Level) : Part := Part.choice (Part.sequence level.parts) level.done

/-- The group as a piece. -/
def closed (level : Level) : Part :=
  let inside := level.gathered
  ⟨if level.isCaptured then .group inside.pattern else inside.pattern, inside.depth + 1, false⟩

/-- Repeats the last piece, if it can be repeated. -/
def repeatLast? (level : Level) (least : Nat) (most : Option Nat) : Option Level :=
  match level.parts with
  | [] => none
  | part :: before =>
    if part.isFlags then none else some { level with parts := part.times least most :: before }

end Level

/-! ## Reading -/

/-- What reading has come to. -/
structure Reading where
  mode : Mode
  /-- The names of groups so far. -/
  names : List (List Char) := []
  /-- The groups around, the nearest first. -/
  outer : List Level := []
  level : Level
deriving Repr, Inhabited

namespace Reading

/-- Adds a piece to the group that is being read. -/
def add (reading : Reading) (part : Part) : Reading :=
  { reading with level := reading.level.add part }

/-- Goes on inside a group. -/
def enter (reading : Reading) (mode : Mode) (isCaptured : Bool) : Reading :=
  { reading with
    mode := mode
    outer := reading.level :: reading.outer
    level := ⟨reading.mode, isCaptured, [], []⟩ }

/-- Goes on after an opening parenthesis.  No two groups have one name. -/
def opened? (reading : Reading) : Opening → Option Reading
  | .group none => some (reading.enter reading.mode true)
  | .group (some name) =>
    if name ∈ reading.names then none
    else some ({ reading with names := name :: reading.names }.enter reading.mode true)
  | .plain mode => some (reading.enter mode false)
  | .flags mode => some { reading.add ⟨.empty, 0, true⟩ with mode := mode }

/-- Goes on after a closing parenthesis. -/
def closed? (reading : Reading) : Option Reading :=
  match reading.outer with
  | [] => none
  | around :: outer =>
    some { reading with
      mode := reading.level.outside
      outer := outer
      level := around.add reading.level.closed }

/-- Repeats the last piece. -/
def repeated? (reading : Reading) (least : Nat) (most : Option Nat) : Option Reading :=
  (reading.level.repeatLast? least most).map fun level => { reading with level := level }

/-- One step, on a text that what the mode skips has been taken from. -/
def step? (reading : Reading) : List Char → Option (Reading × List Char)
  | [] => none
  | '(' :: rest =>
    (opening? reading.mode rest).bind fun (opening, left) =>
      (reading.opened? opening).map (·, left)
  | ')' :: rest => reading.closed?.map (·, rest)
  | '|' :: rest => some ({ reading with level := reading.level.split }, rest)
  | '[' :: rest =>
    (Bracket.class? reading.mode rest).map fun (part, left) =>
      (reading.add ⟨.one part.set, part.depth, false⟩, left)
  | '?' :: rest => (reading.repeated? 0 (some 1)).map (·, pastLazyMark rest)
  | '*' :: rest => (reading.repeated? 0 none).map (·, pastLazyMark rest)
  | '+' :: rest => (reading.repeated? 1 none).map (·, pastLazyMark rest)
  | '\x7b' :: rest =>
    (Count.read? reading.mode rest).bind fun ((least, most), left) =>
      (reading.repeated? least most).map (·, pastLazyMark left)
  | '\\' :: rest =>
    (Escape.read? reading.mode rest).bind fun (escape, left) =>
      (escape.pattern? reading.mode).map fun pattern => (reading.add ⟨pattern, 0, false⟩, left)
  | '.' :: rest => reading.mode.dot?.map fun pattern => (reading.add ⟨pattern, 0, false⟩, rest)
  | '^' :: rest => some (reading.add ⟨.look reading.mode.start, 0, false⟩, rest)
  | '$' :: rest => some (reading.add ⟨.look reading.mode.finish, 0, false⟩, rest)
  | c :: rest =>
    (reading.mode.letter? ⟨c, false⟩).map fun pattern => (reading.add ⟨pattern, 0, false⟩, rest)

/-- Reads on to the end of a text, where no group may be open.  Every step leaves less to read. -/
def finish? (reading : Reading) (text : List Char) : Option Part :=
  match reading.mode.skip text with
  | [] => if reading.outer.isEmpty then some reading.level.gathered else none
  | c :: rest =>
    match reading.step? (c :: rest) with
    | none => none
    | some (reading, left) =>
      if left.length < text.length then reading.finish? left else none
  termination_by text.length

end Reading

namespace Pattern

/-- The most levels that a pattern may be nested. -/
def maxDepth : Nat := 250

/-- The pattern that a text is. -/
def parse? (text : String) : Option Pattern :=
  match (Reading.mk {} [] [] ⟨{}, false, [], []⟩).finish? text.toList with
  | some part =>
    if part.depth ≤ maxDepth ∧ part.pattern.isSupported then some part.pattern else none
  | none => none

end Pattern

end Regex

end SiblingQuery
