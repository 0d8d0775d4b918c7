import SiblingQuery.Json.Source
import SiblingQuery.Tree.Entry

/-!
# Trees from JSON text

A JSON text is a tree if every object in a node's place has the unist shape.  The readers here
turn the members of an object into entries; `Node.ofEntries?`, `Span.ofEntries?` and
`Point.ofEntries?` decide what the entries amount to.

Each array or object that is loaded spends one level of `Source.maxDepth`.  The value of an unknown
key of a point is skipped: it spends nothing and may be anything that JSON can write.
-/

namespace SiblingQuery

open Json

/-- A natural number below `2 ^ 64`, written as digits only. -/
def Json.Source.word? : Source → Option Nat
  | .number n =>
    let magnitude := Numeral.natOfDigits n.whole
    if n.isInteger && !n.negative && magnitude ≤ maxWord then some magnitude else none
  | _ => none

/-- An offset: a natural number below `2 ^ 64`, or null for none. -/
def Json.Source.offset? : Source → Option (Option Nat)
  | .null => some none
  | source => source.word?.map some

/-! ## Points and spans -/

/-- What a member of an object says about a point. -/
def Point.entryOfSource? (member : Quoted × Source) : Option Point.Entry :=
  match member.1.text? with
  | none => none
  | some key =>
    if key = "line" then member.2.word?.map .line
    else if key = "column" then member.2.word?.map .column
    else if key = "offset" then member.2.offset?.map .offset
    else some .other

/-- A point: an object, or an array of line, column and possibly offset. -/
def Point.ofSource? (depth : Nat) : Source → Option Point
  | .object members =>
    if depth = 0 then none
    else (members.mapM Point.entryOfSource?).bind Point.ofEntries?
  | .array [line, column] =>
    if depth = 0 then none
    else
      match line.word?, column.word? with
      | some line, some column => some ⟨line, column, none⟩
      | _, _ => none
  | .array [line, column, offset] =>
    if depth = 0 then none
    else
      match line.word?, column.word?, offset.offset? with
      | some line, some column, some offset => some ⟨line, column, offset⟩
      | _, _, _ => none
  | _ => none

/-- What a member of an object says about a span. -/
def Span.entryOfSource? (depth : Nat) (member : Quoted × Source) : Option Span.Entry :=
  match member.1.text? with
  | none => none
  | some key =>
    if key = "start" then (Point.ofSource? depth member.2).map .start
    else if key = "end" then (Point.ofSource? depth member.2).map .stop
    else (member.2.value? depth).map (.extra key)

/-- A position: an object that describes a span, or null for none. -/
def Span.ofSource? (depth : Nat) : Source → Option (Option Span)
  | .null => some none
  | .object members =>
    match depth with
    | 0 => none
    | depth + 1 =>
      ((members.mapM (Span.entryOfSource? depth)).bind Span.ofEntries?).map some
  | _ => none

/-! ## Nodes -/

namespace Node

mutual

/-- A node: an object of the unist shape, at most `depth` arrays and objects deep. -/
def ofSource? (depth : Nat) : Source → Option Node
  | .object members =>
    match depth with
    | 0 => none
    | depth + 1 => (entriesOfSource? depth members).bind Node.ofEntries?
  | _ => none
termination_by structural source => source

/-- What the members of an object say about a node. -/
def entriesOfSource? (depth : Nat) : List (Quoted × Source) → Option (List Node.Entry)
  | [] => some []
  | (key, source) :: members =>
    let entry? :=
      match key.text? with
      | none => none
      | some key =>
        if key = "type" then
          match source with
          | .string name => name.text?.map .kind
          | _ => none
        else if key = "children" then (childrenOfSource? depth source).map .children
        else if key = "position" then (Span.ofSource? depth source).map .position
        else (source.value? depth).map (.field key)
    match entry?, entriesOfSource? depth members with
    | some entry, some entries => some (entry :: entries)
    | _, _ => none
termination_by structural members => members

/-- A children list: an array of nodes, or null for none. -/
def childrenOfSource? (depth : Nat) : Source → Option (Option (List Node))
  | .null => some none
  | .array items =>
    match depth with
    | 0 => none
    | depth + 1 => (listOfSource? depth items).map some
  | _ => none
termination_by structural source => source

/-- A list of nodes. -/
def listOfSource? (depth : Nat) : List Source → Option (List Node)
  | [] => some []
  | source :: sources =>
    match ofSource? depth source, listOfSource? depth sources with
    | some node, some nodes => some (node :: nodes)
    | _, _ => none
termination_by structural sources => sources

end

/-- The node that a JSON text describes. -/
def parseJson? (text : String) : Option Node :=
  (Source.read text.toList).bind (ofSource? Source.maxDepth)

/-- The nodes that a JSON array describes. -/
def parseJsonList? (text : String) : Option (List Node) :=
  match Source.read text.toList with
  | some (.array items) => listOfSource? (Source.maxDepth - 1) items
  | _ => none

end Node

end SiblingQuery
