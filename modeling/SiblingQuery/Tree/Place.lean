import SiblingQuery.Tree.Node

/-!
# Places and occurrences

Two equal nodes of one tree are still two nodes.  What tells them apart is their place: the tree
that owns them and the child indices that lead to them from its root.  An `Occurrence` is a node
together with its place, and identity of occurrences is equality of places.

A copy of a node has the same content and another owner, so it is never found where the node
itself is.
-/

namespace SiblingQuery

/-- Where a node lives: the owner of its tree, and the child indices from the root. -/
structure Place where
  owner : Nat
  path : List Nat
deriving DecidableEq, Repr, Inhabited

/-- The place of a child. -/
def Place.child (place : Place) (index : Nat) : Place :=
  { place with path := place.path ++ [index] }

/-- A node at its place. -/
structure Occurrence where
  place : Place
  node : Node
deriving Repr, Inhabited

namespace Occurrence

/-- The root of the tree that `owner` owns. -/
def root (node : Node) (owner : Nat) : Occurrence := ⟨⟨owner, []⟩, node⟩

/-- A copy of the node, under an owner of its own. -/
def copy (occurrence : Occurrence) (owner : Nat) : Occurrence := root occurrence.node owner

/-- The child with the given index. -/
def child? (parent : Occurrence) (index : Nat) : Option Occurrence :=
  (parent.node.children.bind (·[index]?)).map fun node => ⟨parent.place.child index, node⟩

/-- The children in order. -/
def children (parent : Occurrence) : List Occurrence :=
  (parent.node.children.getD []).mapIdx fun index node => ⟨parent.place.child index, node⟩

/-- The occurrence that child indices lead to. -/
def descend? (from_ : Occurrence) : List Nat → Option Occurrence
  | [] => some from_
  | index :: path => (from_.child? index).bind (descend? · path)

/-- The same occurrence: the same place. -/
def is (a b : Occurrence) : Bool := a.place = b.place

/-- The index of an occurrence among the children, if it is one of them. -/
def indexOf? (parent child : Occurrence) : Option Nat :=
  parent.children.findIdx? (·.is child)

end Occurrence

end SiblingQuery
