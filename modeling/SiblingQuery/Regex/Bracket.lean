import SiblingQuery.Regex.Escape

/-!
# Classes in brackets

A class lists characters, ranges of them, named sets, and classes in brackets of their own.  Between
lists there may be operators for what is common to both sides, for what is on the left alone, and for
what is on one side alone; the left ones bind first.  A caret after the opening bracket negates.
-/

namespace SiblingQuery

namespace Regex

/-- What joins two lists of members. -/
inductive SetOperator where
  | inter
  | diff
  | symmDiff
deriving DecidableEq, Repr, Inhabited

/-- A set and how deeply it is nested. -/
structure SetPart where
  set : CharSet
  depth : Nat := 0
deriving DecidableEq, Repr, Inhabited

namespace SetPart

/-- The union of listed members. -/
def listed : List SetPart → SetPart
  | [] => ⟨.void, 0⟩
  | [part] => part
  | parts =>
    ⟨parts.foldr (fun part done => .union part.set done) .void,
      parts.foldr (fun part depth => max part.depth depth) 0 + 1⟩

/-- Two lists with an operator between them. -/
def joined (a : SetPart) (operator : SetOperator) (b : SetPart) : SetPart :=
  let set := match operator with
    | .inter => CharSet.inter a.set b.set
    | .diff => a.set.diff b.set
    | .symmDiff => a.set.symmDiff b.set
  ⟨set, max a.depth b.depth + 1⟩

end SetPart

/-- A class that is being read. -/
structure Bracket where
  negated : Bool
  /-- What stands before the last operator, and the operator. -/
  before : Option (SetPart × SetOperator) := none
  /-- The members listed since, the last one first. -/
  members : List SetPart := []
deriving DecidableEq, Repr, Inhabited

namespace Bracket

/-- What has been read, as one part. -/
def gathered (bracket : Bracket) : SetPart :=
  let last := SetPart.listed bracket.members
  match bracket.before with
  | none => last
  | some (first, operator) => first.joined operator last

/-- Goes on after an operator. -/
def split (bracket : Bracket) (operator : SetOperator) : Bracket :=
  ⟨bracket.negated, some (bracket.gathered, operator), []⟩

/-- Lists a member. -/
def add (bracket : Bracket) (part : SetPart) : Bracket :=
  { bracket with members := part :: bracket.members }

/-- The class as a part. -/
def closed? (mode : Mode) (bracket : Bracket) : Option SetPart :=
  let inside := bracket.gathered
  (mode.bracket? inside.set bracket.negated).map fun set => ⟨set, inside.depth + 1⟩

/-! ## Reading -/

/-- Hyphens at the start of a class stand for themselves. -/
def leadingHyphens (mode : Mode) (text : List Char) : List Char × List Char :=
  mode.collect (· = '-') text

/-- The start of a class after its opening bracket: a caret, hyphens that stand for themselves or
else a bracket that does. -/
def open? (mode : Mode) (text : List Char) : Option (Bracket × List Char) :=
  let (negated, text) := match mode.skip text with
    | '^' :: rest => (true, mode.skip rest)
    | text => (false, text)
  let (hyphens, text) := leadingHyphens mode text
  let (own, text) := match hyphens, text with
    | [], ']' :: rest => ([']'], mode.skip rest)
    | _, _ => (hyphens, text)
  if text = [] then none
  else
    (own.mapM fun c => (mode.members? (.single c) false).map (⟨·, 0⟩)).map fun members =>
      (⟨negated, none, members⟩, text)

/-- A named set between colons, after its opening bracket. -/
def named? : List Char → Option ((CharSet × Bool) × List Char)
  | ':' :: rest =>
    let (negated, rest) := match rest with
      | '^' :: rest => (true, rest)
      | _ => (false, rest)
    match rest.dropWhile (· ≠ ':') with
    | ':' :: ']' :: left =>
      (CharSet.named? (String.ofList (rest.takeWhile (· ≠ ':')))).map fun set =>
        ((set, negated), left)
    | _ => none
  | _ => none

/-- What an escape or a character in a class says, and what is left. -/
def item? (mode : Mode) : List Char → Option (Escape × List Char)
  | [] => none
  | '\\' :: rest => Escape.read? mode rest
  | c :: rest => some (.letter ⟨c, false⟩, rest)

/-- What decides whether a hyphen makes a range: what comes after it, past blanks and the sign that
starts a comment. -/
def afterHyphen? (mode : Mode) (text : List Char) : Option Char :=
  if mode.verbose then
    let left := match text.dropWhile Text.isBlank with
      | '#' :: rest => rest.dropWhile Text.isBlank
      | left => left
    left.head?.or text.head?
  else text.head?

/-- A member that is one character or class, or a range of characters, and what is left. -/
def member? (mode : Mode) (text : List Char) : Option (SetPart × List Char) :=
  (item? mode text).bind fun (first, text) =>
    let alone : Option (SetPart × List Char) :=
      (match first with
        | .letter letter => mode.members? (.single letter.char) false
        | .charClass set negated => mode.class? set negated
        | _ => none).map fun set => (⟨set, 0⟩, mode.skip text)
    match mode.skip text with
    | '-' :: rest =>
      if afterHyphen? mode rest = some ']' ∨ afterHyphen? mode rest = some '-' then alone
      else
        (item? mode (mode.skip rest)).bind fun (last, left) =>
          match first, last with
          | .letter low, .letter high =>
            if low.char ≤ high.char then
              (mode.members? (.span low.char high.char) false).map fun set => (⟨set, 0⟩, left)
            else none
          | _, _ => none
    | _ => alone

/-- What reading has come to after a step: a whole class, or a class and those around it. -/
inductive Stage where
  | finished (part : SetPart)
  | within (outer : List Bracket) (bracket : Bracket)
deriving Repr, Inhabited

/-- One step in a class: `outer` are the classes around it, the nearest first. -/
def step? (mode : Mode) (outer : List Bracket) (bracket : Bracket) (text : List Char) :
    Option (Stage × List Char) :=
  match mode.skip text with
  | [] => none
  | ']' :: rest =>
    (bracket.closed? mode).map fun part =>
      match outer with
      | [] => (.finished part, rest)
      | around :: outer => (.within outer (around.add part), rest)
  | '[' :: rest =>
    match named? rest with
    | some ((set, negated), left) =>
      (mode.members? set negated).map fun set => (.within outer (bracket.add ⟨set, 0⟩), left)
    | none => (open? mode rest).map fun (inner, left) => (.within (bracket :: outer) inner, left)
  | '&' :: '&' :: rest => some (.within outer (bracket.split .inter), rest)
  | '-' :: '-' :: rest => some (.within outer (bracket.split .diff), rest)
  | '~' :: '~' :: rest => some (.within outer (bracket.split .symmDiff), rest)
  | left => (member? mode left).map fun (part, left) => (.within outer (bracket.add part), left)

/-- Reads on in a class to its end.  Every step leaves less to read. -/
def read? (mode : Mode) (outer : List Bracket) (bracket : Bracket) (text : List Char) :
    Option (SetPart × List Char) :=
  match step? mode outer bracket text with
  | none => none
  | some (.finished part, left) => some (part, left)
  | some (.within outer bracket, left) =>
    if left.length < text.length then read? mode outer bracket left else none
  termination_by text.length

/-- The class after an opening bracket, and what is left. -/
def class? (mode : Mode) (text : List Char) : Option (SetPart × List Char) :=
  (open? mode text).bind fun (bracket, left) => read? mode [] bracket left

end Bracket

end Regex

end SiblingQuery
