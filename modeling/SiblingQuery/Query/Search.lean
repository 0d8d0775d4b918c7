import SiblingQuery.Query.Test

/-!
# The search

`findAllAfter` lists the children of a parent that come after a start and pass a test, in order.
The index that a test sees is the child's own index among all children, not its distance from the
start.

A search that succeeds is described by `Search`: what was asked of whom, and what was found.
-/

namespace SiblingQuery

/-- A search that has been carried out. -/
structure Search where
  /-- The type of the parent. -/
  parentKind : String
  /-- The index after which the search began. -/
  start : Nat
  /-- How many children the parent has. -/
  siblings : Nat
  /-- What was found, in order. -/
  found : List Occurrence
deriving Repr, Inhabited

/-- The children after a start that pass a test.  The children are numbered before any is skipped,
and the word after the start is the first index that is kept. -/
def Occurrence.matchesAfter (parent : Occurrence) (start : Nat) (test : Test) :
    List Occurrence :=
  ((parent.children.zipIdx.drop (Word.next start)).filter fun (child, index) =>
    test.passes child index parent).map Prod.fst

/-- Searches the children of a parent after a position. -/
def search (parent : Occurrence) (position : Position) (test : Test) :
    Except FindError Search :=
  if parent.node.isParent then
    match position.resolve parent with
    | .error e => .error e
    | .ok start =>
      .ok ⟨parent.node.kind, start, parent.children.length, parent.matchesAfter start test⟩
  else .error .invalidParent

/-- The children of a parent after a position that pass a test. -/
def findAllAfter (parent : Occurrence) (position : Position) (test : Test) :
    Except FindError (List Occurrence) :=
  (search parent position test).map Search.found

/-- The search that JSON values specify: the parent is checked before the position, and the
position before the test. -/
def searchJson (parent : Occurrence) (position test : Json) : Except FindError Search :=
  if parent.node.isParent then
    match Position.ofJson position with
    | .error e => .error e
    | .ok position =>
      match Test.ofJson test with
      | .error e => .error e
      | .ok test => search parent position test
  else .error .invalidParent

/-- The children of a parent after a position that pass a test, both of them JSON values. -/
def findAllAfterJson (parent : Occurrence) (position test : Json) :
    Except FindError (List Occurrence) :=
  (searchJson parent position test).map Search.found

/-- What a search reports about itself. -/
def Search.report (s : Search) : String :=
  "find_all_after: parent=" ++ s.parentKind ++ " start=" ++ toString s.start ++
    " siblings=" ++ toString s.siblings ++ " matches=" ++ toString s.found.length

end SiblingQuery
