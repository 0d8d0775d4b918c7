import SiblingQuery.Number.Word
import SiblingQuery.Text.Blank
import SiblingQuery.Tree.Place

/-!
# Paths as text

A path names a node by the child indices that lead to it from the root, written as decimal words
between points, such as `0.2.1`.  Blanks around the path and around each index are skipped, and a
blank text is the path of the root.

`Occurrence.parentAt` is how a query addresses the node to search: the path has to be well-formed,
lead somewhere, and lead to a node that can be searched.
-/

namespace SiblingQuery

/-- A path with a piece that is no index. -/
structure PathError where
  /-- The piece as it stands between the points. -/
  piece : String
  /-- The path without the blanks around it. -/
  path : String
  cause : WordError
deriving DecidableEq, Repr, Inhabited

/-- What is said about a malformed path, without its cause. -/
def PathError.context (e : PathError) : String :=
  "Invalid path segment '" ++ e.piece ++ "' in '" ++ e.path ++ "'"

namespace Path

/-- The indices of the pieces of a path, up to the first that is none. -/
def readPieces (path : List Char) : List (List Char) → Except PathError (List Nat)
  | [] => .ok []
  | piece :: pieces =>
    match Word.parse (Text.trim piece) with
    | .error cause => .error ⟨String.ofList piece, String.ofList path, cause⟩
    | .ok index =>
      match readPieces path pieces with
      | .error e => .error e
      | .ok indices => .ok (index :: indices)

/-- Reads a path. -/
def parse (text : String) : Except PathError (List Nat) :=
  let path := Text.trim text.toList
  if path = [] then .ok [] else readPieces path (Text.splitOn '.' path)

end Path

/-- Why a text does not address a node that can be searched. -/
inductive AddressError where
  | malformed (error : PathError)
  | missing (path : String)
  | notParent (path kind : String)
deriving DecidableEq, Repr, Inhabited

/-- What is said about a failed address, without its cause. -/
def AddressError.context : AddressError → String
  | .malformed e => e.context
  | .missing path => "No node at path '" ++ path ++ "'"
  | .notParent path kind => "Node at path '" ++ path ++ "' is a '" ++ kind ++ "'"

/-- The node at a path, provided that it can be searched. -/
def Occurrence.parentAt (root : Occurrence) (path : String) : Except AddressError Occurrence :=
  match Path.parse path with
  | .error e => .error (.malformed e)
  | .ok indices =>
    match root.descend? indices with
    | none => .error (.missing path)
    | some found =>
      if found.node.isParent then .ok found else .error (.notParent path found.node.kind)

end SiblingQuery
