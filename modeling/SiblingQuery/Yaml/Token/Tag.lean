import SiblingQuery.Json.Quoted
import SiblingQuery.Yaml.Cursor
import SiblingQuery.Yaml.Token

/-!
# Reading names, tags and directives

Anchors and aliases are names.  A tag is a handle and a suffix, where the suffix is URI text in
which a percent sign starts an octet in hexadecimal digits.  Such octets have to be grouped as UTF-8
groups them, but need not encode a character; what follows a zero octet is read and does not count.
A directive stands on a line of its own before a document.
-/

namespace SiblingQuery

namespace Yaml

namespace Tag

/-! ## Anchors and aliases -/

/-- A character that may follow a name without a blank between them. -/
def endsName (c : Char) : Bool :=
  c = '?' || c = ':' || c = ',' || c = ']' || c = '\x7d' || c = '%' || c = '@' || c.toNat = 96

/-- The name of an anchor or an alias, from its indicator. -/
def name? (c : Cursor) : Option (String × Cursor) :=
  let (name, c) := (c.advance 1).run isNameChar
  if name = [] ∨ !(c.spaceAhead 0 || c.next endsName) then none
  else some (String.ofList name, c)

/-! ## URI text -/

/-- A character of URI text; inside angle brackets the comma and the square brackets are too. -/
def isUriChar (verbatim : Bool) (c : Char) : Bool :=
  isNameChar c || ";/?:@&=+$.%!~*'()".toList.contains c || (verbatim && ",[]".toList.contains c)

/-- How many octets a group takes whose first octet is given. -/
def groupSize? (lead : Nat) : Option Nat :=
  if lead < 0x80 then some 1
  else if lead / 32 = 6 then some 2
  else if lead / 16 = 14 then some 3
  else if lead / 8 = 30 then some 4
  else none

/-- Further octets of a group, each written with a percent sign. -/
def trailing? : Nat → List Char → Option (List UInt8 × List Char)
  | 0, rest => some ([], rest)
  | count + 1, '%' :: a :: b :: rest =>
    match hexNumber? [a, b], trailing? count rest with
    | some n, some (octets, rest) =>
      if n / 64 = 2 then some (n.toUInt8 :: octets, rest) else none
    | _, _ => none
  | _, _ => none

/-- A group of octets, each written with a percent sign. -/
def group? : List Char → Option (List UInt8 × List Char)
  | '%' :: a :: b :: rest =>
    match hexNumber? [a, b] with
    | none => none
    | some lead =>
      match groupSize? lead with
      | none => none
      | some count =>
        (trailing? (count - 1) rest).map fun (octets, rest) => (lead.toUInt8 :: octets, rest)
  | _ => none

/-- URI text, possibly empty, and what follows it. -/
def uriFrom (verbatim : Bool) : Nat → List Char → Option (List UInt8 × List Char)
  | 0, text => some ([], text)
  | fuel + 1, text =>
    match text with
    | [] => some ([], [])
    | c :: rest =>
      if !isUriChar verbatim c then some ([], c :: rest)
      else if c = '%' then
        match group? (c :: rest) with
        | none => none
        | some (octets, after) =>
          (uriFrom verbatim fuel after).map fun (more, rest) => (octets ++ more, rest)
      else
        (uriFrom verbatim fuel rest).map fun (more, rest) => (c.toNat.toUInt8 :: more, rest)

/-- URI text and the place after it. -/
def uri? (verbatim : Bool) (c : Cursor) : Option (List UInt8 × Cursor) :=
  (uriFrom verbatim c.size c.text).map fun (octets, rest) =>
    (octets, c.advance (c.text.length - rest.length))

/-- What counts of some octets: those before the first zero octet. -/
def counting (octets : List UInt8) : Tag := ⟨octets.takeWhile (· ≠ 0)⟩

/-! ## Tags -/

/-- A handle: an exclamation mark, a name, and perhaps a second mark. -/
def handle? (c : Cursor) : Option (List Char × Cursor) :=
  if !c.next (· = '!') then none
  else
    let (name, c) := (c.advance 1).run isNameChar
    if c.next (· = '!') then some ('!' :: (name ++ ['!']), c.advance 1)
    else some ('!' :: name, c)

/-- A tag, from its indicator, as handle and suffix.  The handle is empty for a tag written in
full and for the indicator alone. -/
def parts? (c : Cursor) : Option (List Char × Tag × Cursor) :=
  if c.ahead 1 (· = '<') then
    match uri? true (c.advance 2) with
    | some (uri, c) =>
      if uri ≠ [] ∧ c.next (· = '>') then some ([], counting uri, c.advance 1) else none
    | none => none
  else
    match handle? c with
    | none => none
    | some (handle, c) =>
      match uri? false c with
      | none => none
      | some (uri, c) =>
        if 2 ≤ handle.length ∧ handle.getLast? = some '!' then
          if uri = [] then none else some (handle, counting uri, c)
        else
          let suffix := (ofChars (handle.drop 1)).append (counting uri)
          if suffix.octets = [] then some ([], ofString "!", c) else some (['!'], suffix, c)

/-- A tag, which has to end before a blank, or in brackets before a comma. -/
def tag? (inFlow : Bool) (c : Cursor) : Option (String × Tag × Cursor) :=
  match parts? c with
  | some (handle, suffix, c) =>
    if (inFlow && c.next (· = ',')) || c.spaceAhead 0 then
      some (String.ofList handle, suffix, c)
    else none
  | none => none

/-! ## Directives -/

/-- What a directive says. -/
inductive Directive where
  | version (major minor : Nat)
  | tag (handle : String) (expansion : Tag)
deriving DecidableEq, Repr, Inhabited

/-- A number of at most nine digits. -/
def versionNumber? (c : Cursor) : Option (Nat × Cursor) :=
  let (digits, c) := c.run Char.isDigit
  if digits = [] ∨ 9 < digits.length then none else some (Nat.ofDigitChars 10 digits 0, c)

/-- A version: two numbers with a point between them. -/
def version? (c : Cursor) : Option (Directive × Cursor) :=
  match versionNumber? c with
  | none => none
  | some (major, c) =>
    if !c.next (· = '.') then none
    else (versionNumber? (c.advance 1)).map fun (minor, c) => (.version major minor, c)

/-- A handle and what it expands to. -/
def expansion? (c : Cursor) : Option (Directive × Cursor) :=
  match handle? c with
  | none => none
  | some (handle, c) =>
    if (handle ≠ ['!'] ∧ handle.getLast? ≠ some '!') ∨ !c.next isBlank then none
    else
      match uri? true (c.skip isBlank) with
      | none => none
      | some (uri, c) =>
        if uri = [] ∨ !c.spaceAhead 0 then none
        else some (.tag (String.ofList handle) (counting uri), c)

/-- A directive, from its indicator to the end of its line. -/
def directive? (c : Cursor) : Option (Directive × Cursor) :=
  let (name, c) := (c.advance 1).run isNameChar
  if !c.spaceAhead 0 then none
  else
    let c := c.skip isBlank
    let read :=
      if name = "YAML".toList then version? c
      else if name = "TAG".toList then expansion? c
      else none
    match read with
    | none => none
    | some (directive, c) => c.endLine?.map fun c => (directive, c)

end Tag

end Yaml

end SiblingQuery
