import SiblingQuery.Toml.Value

/-!
# Tables under construction

While a document is read, a table remembers how it came about, because that decides how it may
still grow.

* A table that has its header is not given another, and keys with points do not reach into it
  from outside.
* A table that only lies on the way of a header may still get its own.
* A table that keys with points have made grows by such keys, and by headers of tables inside it.

A value is closed: nothing reaches into it.  So is an inline table as soon as its brace is, and
until then it grows by the same rules.
-/

namespace SiblingQuery

namespace Toml

/-- How a table came about. -/
inductive Origin where
  /-- It has a header, or is the document, an element of an array of tables, or an inline
  table. -/
  | header
  /-- It lies on the way of a header. -/
  | implied
  /-- Keys with points made it. -/
  | dotted
deriving DecidableEq, Repr, Inhabited

/-- What stands under a key of a table under construction. -/
inductive Item where
  | value (value : Toml)
  | table (origin : Origin) (members : List (String × Item))
  /-- An array of tables, which has at least one; only the last of them still grows. -/
  | tables (earlier : List (List (String × Item))) (last : List (String × Item))
deriving Repr, Inhabited

/-- A table under construction. -/
abbrev Table := List (String × Item)

/-! ## Growing -/

namespace Table

/-- Changes the table at the end of a path.  Tables that are missing on the way are made, and
come about as `through`. -/
def alter? (through : Origin) (change : Origin → Table → Option Table) :
    List String → Origin → Table → Option Table
  | [], origin, entries => change origin entries
  | key :: path, _, entries =>
    let item :=
      match Members.get? key entries with
      | none => (alter? through change path through []).map (Item.table through)
      | some (.value _) => none
      | some (.tables earlier last) =>
        (alter? through change path .header last).map (Item.tables earlier)
      | some (.table origin members) =>
        if through = Origin.dotted ∧ origin = Origin.header then none
        else (alter? through change path origin members).map (Item.table origin)
    item.map fun item => Members.set key item entries

/-- Puts a value under a path of keys with points between them.  The last table on the way must
be one that such keys have made, unless the path has one key only. -/
def assign? (path : List String) (value : Toml) : Origin → Table → Option Table :=
  let way := path.dropLast
  alter? .dotted
    (fun origin entries =>
      if (origin = .dotted) = (way = []) then none
      else
        match path.getLast? with
        | none => none
        | some key =>
          match Members.get? key entries with
          | none => some (entries ++ [(key, .value value)])
          | some _ => none)
    way

end Table

/-! ## Closing -/

mutual

/-- The finished value. -/
def Item.close : Item → Toml
  | .value value => value
  | .table _ members => .table (closeMembers members)
  | .tables earlier last => .array (closeTables earlier ++ [.table (closeMembers last)])
termination_by structural item => item

/-- The finished members of a table. -/
def closeMembers : List (String × Item) → List (String × Toml)
  | [] => []
  | (key, item) :: members => (key, item.close) :: closeMembers members
termination_by structural members => members

/-- The finished tables of an array. -/
def closeTables : List (List (String × Item)) → List Toml
  | [] => []
  | members :: tables => .table (closeMembers members) :: closeTables tables
termination_by structural tables => tables

end

/-! ## Headers -/

/-- A document under construction: its outermost table, and the path of the header that keys
stand under. -/
structure Draft where
  root : Table
  here : List String
deriving Repr, Inhabited

namespace Draft

/-- Nothing has been read. -/
def empty : Draft := ⟨[], []⟩

/-- A key with its value. -/
def assign? (draft : Draft) (path : List String) (value : Toml) : Option Draft :=
  (Table.alter? .implied (Table.assign? path value) draft.here .header draft.root).map
    fun root => ⟨root, draft.here⟩

/-- Changes what stands under the last key of a header's path, and goes there. -/
def enter? (change : Option Item → Option Item) (draft : Draft) (path : List String) :
    Option Draft :=
  (path.getLast?).bind fun key =>
    (Table.alter? .implied
      (fun _ entries =>
        (change (Members.get? key entries)).map fun item => Members.set key item entries)
      path.dropLast .header draft.root).map fun root => ⟨root, path⟩

/-- The header of a table. -/
def table? : Draft → List String → Option Draft :=
  enter? fun
    | none => some (.table .header [])
    | some (.table .implied members) => some (.table .header members)
    | some _ => none

/-- The header of an element of an array of tables. -/
def element? : Draft → List String → Option Draft :=
  enter? fun
    | none => some (.tables [] [])
    | some (.tables earlier last) => some (.tables (earlier ++ [last]) [])
    | some _ => none

end Draft

end Toml

end SiblingQuery
