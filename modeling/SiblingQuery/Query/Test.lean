import SiblingQuery.Json.Source
import SiblingQuery.Query.Position

/-!
# Tests

A test says which nodes a search keeps.  `Test.passes` is its meaning: whether a node passes, given
its index and its parent.  Only a predicate looks at the index and the parent.

* A type name keeps the nodes of that type.
* Attributes keep the nodes that have every listed member with an equal value.
* A node as test keeps itself, and if it has no children, no position and only scalar fields also
  every node of its type whose fields include all of its own.
* A list of tests keeps what any of them keeps.

Tests can be given as JSON values and as texts, where a text that is not JSON is a type name.
-/

namespace SiblingQuery

/-- Which nodes a search keeps. -/
inductive Test where
  | any
  | kind (name : String)
  | attributes (members : List (String × Json))
  | predicate (holds : Occurrence → Nat → Occurrence → Bool)
  | node (expected : Occurrence)
  | anyOf (tests : List Test)
deriving Inhabited

/-- Every listed member is a member of the node's serialised form, with an equal value. -/
def Node.hasAttributes (node : Node) (members : List (String × Json)) : Bool :=
  members.all fun (key, expected) =>
    match node.field? key with
    | some actual => actual.same expected
    | none => false

/-- A scalar field of another node that this node has too, with an equal value. -/
def Node.sharesField (node : Node) (key : String) (expected : Json) : Bool :=
  !expected.isContainer &&
    match node.get? key with
    | some actual => actual.same expected
    | none => false

/-- Whether a node passes for another that is taken as the test. -/
def Occurrence.passesFor (candidate expected : Occurrence) : Bool :=
  candidate.is expected ||
    (expected.node.children.isNone && expected.node.position.isNone &&
      candidate.node.kind = expected.node.kind &&
      expected.node.fields.all fun (key, value) => candidate.node.sharesField key value)

namespace Test

mutual

/-- Whether a node passes, given its index among the children of its parent. -/
def passes (node : Occurrence) (index : Nat) (parent : Occurrence) : Test → Bool
  | .any => true
  | .kind name => node.node.kind = name
  | .attributes members => node.node.hasAttributes members
  | .predicate holds => holds node index parent
  | .node expected => node.passesFor expected
  | .anyOf tests => passesAny node index parent tests
termination_by structural test => test

/-- Whether a node passes one of several tests. -/
def passesAny (node : Occurrence) (index : Nat) (parent : Occurrence) : List Test → Bool
  | [] => false
  | test :: tests => passes node index parent test || passesAny node index parent tests
termination_by structural tests => tests

end

/-! ## Tests given as data -/

mutual

/-- The test that a JSON value specifies: null for any node, a string for a type, an object for
attributes, an array for a list of tests. -/
def ofJson : Json → Except FindError Test
  | .null => .ok .any
  | .str name => .ok (.kind name)
  | .obj members => .ok (.attributes members)
  | .arr items =>
    match ofJsonList items with
    | .ok tests => .ok (.anyOf tests)
    | .error e => .error e
  | .bool _ => .error (.invalidTest "boolean")
  | .num _ => .error (.invalidTest "number")
termination_by structural value => value

/-- The tests that JSON values specify, up to the first that specifies none. -/
def ofJsonList : List Json → Except FindError (List Test)
  | [] => .ok []
  | item :: items =>
    match ofJson item with
    | .error e => .error e
    | .ok test =>
      match ofJsonList items with
      | .error e => .error e
      | .ok tests => .ok (test :: tests)
termination_by structural items => items

end

/-- The test that a text specifies: a JSON value, or else a type name. -/
def parse (text : String) : Except FindError Test :=
  match Json.parse? text with
  | some value => ofJson value
  | none => .ok (.kind text)

/-- The tests that texts specify, up to the first that specifies none. -/
def parseList : List String → Except FindError (List Test)
  | [] => .ok []
  | text :: texts =>
    match parse text with
    | .error e => .error e
    | .ok test =>
      match parseList texts with
      | .error e => .error e
      | .ok tests => .ok (test :: tests)

/-- The one test that several texts specify together: any of them, or any node if there is
none. -/
def parseAll (texts : List String) : Except FindError Test :=
  match parseList texts with
  | .error e => .error e
  | .ok [] => .ok .any
  | .ok [test] => .ok test
  | .ok tests => .ok (.anyOf tests)

end Test

end SiblingQuery
