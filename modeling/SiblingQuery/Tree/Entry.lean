import SiblingQuery.Tree.Node

/-!
# Assembling nodes from the entries of a mapping

Every reader of trees, whatever its text format, cuts a mapping into entries: what each member
says about the node, span or point that the mapping describes.  This module puts entries together.
The rules are those of the unist shape, the same for every format:

* `type`, `children`, `position`, `start`, `end`, `line`, `column` and `offset` may not repeat;
* a missing type is empty, missing children and position are absent;
* a span needs `start` and `end`, a point needs `line` and `column`;
* other keys of nodes and spans are kept in the order of their first appearance with their last
  value, and other keys of points are dropped.
-/

namespace SiblingQuery

/-- The value of a list of at most one; `none` when there are several. -/
def Members.only? {α : Type} : List α → Option (Option α)
  | [] => some none
  | [value] => some (some value)
  | _ => none

/-! ## Points -/

/-- What one member says about a point. -/
inductive Point.Entry where
  | line (n : Nat)
  | column (n : Nat)
  | offset (n : Option Nat)
  | other
deriving DecidableEq, Repr

namespace Point

/-- The line that an entry gives. -/
def Entry.line? : Entry → Option Nat
  | .line n => some n
  | _ => none

/-- The column that an entry gives. -/
def Entry.column? : Entry → Option Nat
  | .column n => some n
  | _ => none

/-- The offset that an entry gives, which may be that there is none. -/
def Entry.offset? : Entry → Option (Option Nat)
  | .offset n => some n
  | _ => none

/-- The point that the entries describe. -/
def ofEntries? (entries : List Entry) : Option Point :=
  match Members.only? (entries.filterMap Entry.line?),
      Members.only? (entries.filterMap Entry.column?),
      Members.only? (entries.filterMap Entry.offset?) with
  | some (some line), some (some column), some offset => some ⟨line, column, offset.join⟩
  | _, _, _ => none

end Point

/-! ## Spans -/

/-- What one member says about a span. -/
inductive Span.Entry where
  | start (point : Point)
  | stop (point : Point)
  | extra (key : String) (value : Json)
deriving Repr

namespace Span

/-- The start that an entry gives. -/
def Entry.start? : Entry → Option Point
  | .start point => some point
  | _ => none

/-- The end that an entry gives. -/
def Entry.stop? : Entry → Option Point
  | .stop point => some point
  | _ => none

/-- The extra member that an entry gives. -/
def Entry.extra? : Entry → Option (String × Json)
  | .extra key value => some (key, value)
  | _ => none

end Span

/-- Members in the order of their first appearance, each key with its last value. -/
def Members.settled {α : Type} (members : List (String × α)) : List (String × α) :=
  members.foldl (fun done member => Members.set member.1 member.2 done) []

/-- The span that the entries describe. -/
def Span.ofEntries? (entries : List Span.Entry) : Option Span :=
  match Members.only? (entries.filterMap Span.Entry.start?),
      Members.only? (entries.filterMap Span.Entry.stop?) with
  | some (some start), some (some stop) =>
    some ⟨start, stop, Members.settled (entries.filterMap Span.Entry.extra?)⟩
  | _, _ => none

/-! ## Nodes -/

/-- What one member says about a node. -/
inductive Node.Entry where
  | kind (name : String)
  | children (nodes : Option (List Node))
  | position (span : Option Span)
  | field (key : String) (value : Json)
deriving Repr

namespace Node

/-- The type that an entry gives. -/
def Entry.kind? : Entry → Option String
  | .kind name => some name
  | _ => none

/-- The children that an entry gives, which may be that there are none. -/
def Entry.children? : Entry → Option (Option (List Node))
  | .children nodes => some nodes
  | _ => none

/-- The position that an entry gives, which may be that there is none. -/
def Entry.position? : Entry → Option (Option Span)
  | .position span => some span
  | _ => none

/-- The field that an entry gives. -/
def Entry.field? : Entry → Option (String × Json)
  | .field key value => some (key, value)
  | _ => none

/-- The node that the entries describe. -/
def ofEntries? (entries : List Entry) : Option Node :=
  match Members.only? (entries.filterMap Entry.kind?),
      Members.only? (entries.filterMap Entry.children?),
      Members.only? (entries.filterMap Entry.position?) with
  | some kind, some children, some position =>
    some ⟨kind.getD "", Members.settled (entries.filterMap Entry.field?), children.join,
      position.join⟩
  | _, _, _ => none

end Node

end SiblingQuery
