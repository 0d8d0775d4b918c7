import SiblingQuery.Json.Quoted
import SiblingQuery.Toml.Layout

/-!
# Strings and keys of TOML

A string stands between quotes or apostrophes, one of them or three.  Between quotes a backslash
escapes; between apostrophes every character stands for itself.  Between three of them a string
may hold line breaks, each of which counts as a line feed, and one that comes first is dropped.
Such a string ends with the first three marks in a row, but of marks that follow at once up to two
still belong to it.

Every reader here takes the text after the opening marks and gives what follows the closing ones.
-/

namespace SiblingQuery

namespace Toml

/-! ## Escapes -/

/-- The character that a one-letter escape stands for. -/
def escaped? : Char → Option Char
  | 'b' => some '\x08'
  | 't' => some '\t'
  | 'n' => some '\n'
  | 'f' => some '\x0c'
  | 'r' => some '\r'
  | '"' => some '"'
  | '\\' => some '\\'
  | _ => none

/-- The character with the code that some hexadecimal digits give. -/
def character? (digits : List Char) : Option Char :=
  match hexNumber? digits with
  | some n => if n.isValidChar then some (Char.ofNat n) else none
  | none => none

/-- Puts a character in front of what has been read. -/
def push? (c : Option Char) (read : Option (List Char × List Char)) :
    Option (List Char × List Char) :=
  match c, read with
  | some c, some (text, after) => some (c :: text, after)
  | _, _ => none

/-! ## Strings on one line -/

/-- Reads up to a quote. -/
def basic? : List Char → Option (List Char × List Char)
  | [] => none
  | '"' :: rest => some ([], rest)
  | '\\' :: 'u' :: a :: b :: c :: d :: rest => push? (character? [a, b, c, d]) (basic? rest)
  | '\\' :: 'U' :: a :: b :: c :: d :: e :: f :: g :: h :: rest =>
    push? (character? [a, b, c, d, e, f, g, h]) (basic? rest)
  | '\\' :: e :: rest => push? (escaped? e) (basic? rest)
  | c :: rest => if isPlain c then push? (some c) (basic? rest) else none

/-- Reads up to an apostrophe. -/
def literal? : List Char → Option (List Char × List Char)
  | [] => none
  | '\'' :: rest => some ([], rest)
  | c :: rest => if isPlain c then push? (some c) (literal? rest) else none

/-! ## Strings on several lines -/

/-- Reads up to three quotes.  A backslash that ends its line escapes the line break and every
blank and line break after it; `trimming` says that such have been begun. -/
def basicBlock? (trimming : Bool) : List Char → Option (List Char × List Char)
  | [] => none
  | '"' :: '"' :: '"' :: '"' :: '"' :: rest => some (['"', '"'], rest)
  | '"' :: '"' :: '"' :: '"' :: rest => some (['"'], rest)
  | '"' :: '"' :: '"' :: rest => some ([], rest)
  | '\r' :: '\n' :: rest =>
    if trimming then basicBlock? true rest else push? (some '\n') (basicBlock? false rest)
  | '\\' :: 'u' :: a :: b :: c :: d :: rest =>
    push? (character? [a, b, c, d]) (basicBlock? false rest)
  | '\\' :: 'U' :: a :: b :: c :: d :: e :: f :: g :: h :: rest =>
    push? (character? [a, b, c, d, e, f, g, h]) (basicBlock? false rest)
  | '\\' :: e :: rest =>
    if (afterBreak? (skipBlanks (e :: rest))).isSome then basicBlock? true (e :: rest)
    else push? (escaped? e) (basicBlock? false rest)
  | c :: rest =>
    if trimming && (isBlank c || c = '\n') then basicBlock? true rest
    else if c = '\n' || isPlain c then push? (some c) (basicBlock? false rest)
    else none

/-- Reads up to three apostrophes. -/
def literalBlock? : List Char → Option (List Char × List Char)
  | [] => none
  | '\'' :: '\'' :: '\'' :: '\'' :: '\'' :: rest => some (['\'', '\''], rest)
  | '\'' :: '\'' :: '\'' :: '\'' :: rest => some (['\''], rest)
  | '\'' :: '\'' :: '\'' :: rest => some ([], rest)
  | '\r' :: '\n' :: rest => push? (some '\n') (literalBlock? rest)
  | c :: rest => if c = '\n' || isPlain c then push? (some c) (literalBlock? rest) else none

/-- What follows the line break that a string on several lines may begin with. -/
def skipBreak (text : List Char) : List Char := (afterBreak? text).getD text

/-- A string of any kind, and what follows it. -/
def string? : List Char → Option (List Char × List Char)
  | '"' :: '"' :: '"' :: rest => basicBlock? false (skipBreak rest)
  | '"' :: rest => basic? rest
  | '\'' :: '\'' :: '\'' :: rest => literalBlock? (skipBreak rest)
  | '\'' :: rest => literal? rest
  | _ => none

/-! ## Keys -/

/-- A character of a key without quotes. -/
def isKeyChar (c : Char) : Bool := c.isAlphanum || c = '-' || c = '_'

/-- A key without points: a string on one line, or a run of key characters. -/
def key? : List Char → Option (String × List Char)
  | '"' :: rest => (basic? rest).map fun (text, after) => (String.ofList text, after)
  | '\'' :: rest => (literal? rest).map fun (text, after) => (String.ofList text, after)
  | text =>
    match text.span isKeyChar with
    | ([], _) => none
    | (run, after) => some (String.ofList run, after)

/-- How many keys a path may have, and how deep arrays and tables between brackets and braces may
stand inside one another. -/
def maxDepth : Nat := 79

/-- Keys with points between them and blanks around them, at most as many as given. -/
def path? : Nat → List Char → Option (List String × List Char)
  | 0, _ => none
  | more + 1, text =>
    match key? (skipBlanks text) with
    | none => none
    | some (key, rest) =>
      match skipBlanks rest with
      | '.' :: rest => (path? more rest).map fun (keys, after) => (key :: keys, after)
      | rest => some ([key], rest)

end Toml

end SiblingQuery
