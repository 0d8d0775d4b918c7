import SiblingQuery.Toml.Scalar
import SiblingQuery.Toml.Table

/-!
# TOML documents

A document is lines: headers, keys with values, and lines with nothing but layout.  `Toml.parse?`
gives the table that a document says, and `none` when it is none.

Reading works on the text from the front and takes fuel, of which every step with a bracket, a
brace, a comma or a line costs at most two for each character that it reads.
-/

namespace SiblingQuery

namespace Toml

/-! ## Values -/

mutual

/-- A value with at most `depth` arrays and inline tables inside one another, and what follows
it. -/
def value? (depth : Nat) : Nat → List Char → Option (Toml × List Char)
  | 0, _ => none
  | fuel + 1, '[' :: rest =>
    match depth with
    | 0 => none
    | depth + 1 => (items? depth fuel rest).map fun (items, after) => (.array items, after)
  | fuel + 1, '{' :: rest =>
    match depth with
    | 0 => none
    | depth + 1 =>
      match skipBlanks rest with
      | '}' :: after => some (.table [], after)
      | rest => members? depth fuel [] rest
  | _, text => scalar? text
termination_by structural fuel => fuel

/-- The items of an array up to its bracket.  A comma may follow the last. -/
def items? (depth : Nat) : Nat → List Char → Option (List Toml × List Char)
  | 0, _ => none
  | fuel + 1, text =>
    match afterLayout? false text with
    | none => none
    | some (']' :: after) => some ([], after)
    | some text =>
      match value? depth fuel text with
      | none => none
      | some (item, rest) =>
        match afterLayout? false rest with
        | some (',' :: rest) =>
          (items? depth fuel rest).map fun (items, after) => (item :: items, after)
        | some (']' :: after) => some ([item], after)
        | _ => none
termination_by structural fuel => fuel

/-- The inline table that has been begun, with its further members up to its brace.  No comma
follows the last. -/
def members? (depth : Nat) : Nat → Table → List Char → Option (Toml × List Char)
  | 0, _, _ => none
  | fuel + 1, entries, text =>
    match path? maxDepth text with
    | some (path, '=' :: rest) =>
      match value? depth fuel (skipBlanks rest) with
      | none => none
      | some (value, rest) =>
        match Table.assign? path value .header entries with
        | none => none
        | some entries =>
          match skipBlanks rest with
          | ',' :: rest => members? depth fuel entries rest
          | '}' :: after => some (.table (closeMembers entries), after)
          | _ => none
    | _ => none
termination_by structural fuel => fuel

end

/-! ## Lines -/

/-- Fuel enough for a value at the front of a text. -/
def enough (text : List Char) : Nat := 2 * text.length + 1

/-- A line with a header, or with a key and its value, and what follows the line. -/
def statement? (draft : Draft) : List Char → Option (Draft × List Char)
  | '[' :: '[' :: rest =>
    match path? maxDepth rest with
    | some (path, ']' :: ']' :: rest) =>
      match draft.element? path, afterLine? rest with
      | some draft, some after => some (draft, after)
      | _, _ => none
    | _ => none
  | '[' :: rest =>
    match path? maxDepth rest with
    | some (path, ']' :: rest) =>
      match draft.table? path, afterLine? rest with
      | some draft, some after => some (draft, after)
      | _, _ => none
    | _ => none
  | text =>
    match path? maxDepth text with
    | some (path, '=' :: rest) =>
      match value? maxDepth (enough rest) (skipBlanks rest) with
      | none => none
      | some (value, rest) =>
        match draft.assign? path value, afterLine? rest with
        | some draft, some after => some (draft, after)
        | _, _ => none
    | _ => none

/-- All further lines. -/
def lines? : Nat → Draft → List Char → Option Draft
  | _, draft, [] => some draft
  | 0, _, _ => none
  | fuel + 1, draft, text =>
    match afterLine? text with
    | some rest => lines? fuel draft rest
    | none =>
      match statement? draft (skipBlanks text) with
      | some (draft, rest) => lines? fuel draft rest
      | none => none

/-- The text without a byte order mark in front. -/
def skipMark : List Char → List Char
  | '\ufeff' :: rest => rest
  | text => text

/-- The table that a document says. -/
def parse? (text : String) : Option (List (String × Toml)) :=
  let text := skipMark text.toList
  (lines? text.length Draft.empty text).map fun draft => closeMembers draft.root

end Toml

end SiblingQuery
