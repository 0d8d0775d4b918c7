import SiblingQuery.Json.Value

/-!
# Nodes of a unist tree

A unist node has a `type`, fields of its own choosing, and optionally children and a position in
a source file.  `Node` keeps the type as `kind` and the fields in the order in which they were
first set.  The keys `type`, `children` and `position` are reserved: they are never fields.

`Node.toJson` is the serialised form: `type`, the fields, then `children` and `position` where
present.  `Node.field?` looks a member of that form up without writing it out, and `Node.same` is
structural equality, in which the order of fields does not count.
-/

namespace SiblingQuery

/-! ## Places in a source file -/

/-- A place in a source file: line and column from one on, and the offset in bytes from the start
if it is known. -/
structure Point where
  line : Nat
  column : Nat
  offset : Option Nat
deriving DecidableEq, Repr, Inhabited

/-- The part of a source file that a node covers, up to but not including `stop`, with whatever
else its producer noted. -/
structure Span where
  start : Point
  stop : Point
  extra : List (String × Json)
deriving Repr, Inhabited

/-- A node of a unist tree.  Without a children list it is a leaf; an empty list is not the same
as none. -/
structure Node where
  kind : String
  fields : List (String × Json)
  children : Option (List Node)
  position : Option Span
deriving Repr, Inhabited

/-! ## Building nodes -/

namespace Node

/-- The keys that are never fields. -/
def isReserved (key : String) : Bool := key = "type" || key = "children" || key = "position"

/-- A leaf without fields. -/
def leaf (kind : String) : Node := ⟨kind, [], none, none⟩

/-- A node that owns a list of children. -/
def parent (kind : String) (children : List Node) : Node := ⟨kind, [], some children, none⟩

/-- Sets a field; a reserved key is ignored. -/
def withField (node : Node) (key : String) (value : Json) : Node :=
  if isReserved key then node else { node with fields := Members.set key value node.fields }

/-- A leaf with a text under `value`. -/
def literal (kind value : String) : Node := (leaf kind).withField "value" (.str value)

/-- Attaches a position. -/
def withPosition (node : Node) (span : Span) : Node := { node with position := some span }

/-- Replaces the children list; `none` makes a leaf. -/
def withChildren (node : Node) (children : Option (List Node)) : Node :=
  { node with children }

/-! ## Looking at nodes -/

/-- The value of a field. -/
def get? (node : Node) (key : String) : Option Json := Members.get? key node.fields

/-- The `value` field, if it is a text. -/
def valueText? (node : Node) : Option String := (node.get? "value").bind Json.string?

/-- Whether the node can be searched: it has a type, and a children list that may be empty. -/
def isParent (node : Node) : Bool := node.kind ≠ "" && node.children.isSome

end Node

/-! ## The serialised form -/

/-- An optional member of an object. -/
def Members.optional (key : String) (value : Option Json) : List (String × Json) :=
  match value with
  | none => []
  | some value => [(key, value)]

/-- A point as an object; an unknown offset is left out. -/
def Point.toJson (point : Point) : Json :=
  .obj (("line", .ofNat point.line) :: ("column", .ofNat point.column) ::
    Members.optional "offset" (point.offset.map .ofNat))

/-- A span as an object: `start`, `end`, then the producer's own keys. -/
def Span.toJson (span : Span) : Json :=
  .obj (("start", span.start.toJson) :: ("end", span.stop.toJson) :: span.extra)

mutual

/-- A node as an object: `type`, the fields in order, then `children` and `position` if
present. -/
def Node.toJson : Node → Json
  | ⟨kind, fields, children, position⟩ =>
    let position := Members.optional "position" (position.map Span.toJson)
    .obj (("type", .str kind) :: (fields ++
      match children with
      | none => position
      | some children => ("children", .arr (Node.listToJson children)) :: position))

/-- Every node of a list as an object. -/
def Node.listToJson : List Node → List Json
  | [] => []
  | node :: nodes => node.toJson :: Node.listToJson nodes

end

/-- A member of the serialised form, as a value. -/
def Node.field? (node : Node) (key : String) : Option Json :=
  if key = "type" then some (.str node.kind)
  else if key = "children" then
    node.children.map fun children => (Json.arr (Node.listToJson children)).normalize
  else if key = "position" then node.position.map fun span => span.toJson.normalize
  else node.get? key

/-! ## Structural equality -/

/-- Equality of field lists without regard to order. -/
def Members.same (a b : List (String × Json)) : Bool :=
  a.length = b.length &&
    a.all fun (key, value) =>
      match Members.get? key b with
      | some other => value.same other
      | none => false

/-- Equality of spans, without regard to the order of the extra keys. -/
def Span.same (a b : Span) : Bool :=
  a.start = b.start && a.stop = b.stop && Members.same a.extra b.extra

/-- Equality of optional spans. -/
def Span.sameOption : Option Span → Option Span → Bool
  | none, none => true
  | some a, some b => a.same b
  | _, _ => false

mutual

/-- Structural equality of nodes. -/
def Node.same : Node → Node → Bool
  | ⟨kind, fields, children, position⟩, other =>
    kind = other.kind && Members.same fields other.fields &&
      (match children, other.children with
        | none, none => true
        | some children, some others => Node.sameList children others
        | _, _ => false) &&
      Span.sameOption position other.position
termination_by structural node => node

/-- Structural equality of lists of nodes. -/
def Node.sameList : List Node → List Node → Bool
  | [], [] => true
  | a :: as, b :: bs => Node.same a b && Node.sameList as bs
  | _, _ => false
termination_by structural nodes => nodes

end

end SiblingQuery
