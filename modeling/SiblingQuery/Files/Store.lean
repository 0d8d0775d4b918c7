import SiblingQuery.Text.Blank

/-!
# Files by path

A `Store` holds files with their octets, and directories, one of which is the working directory.  An
entry is addressed by the names that lead to it from the root.  A path text is names between slashes,
where an empty name and `.` stay where they are and `..` goes back up, as far as the root.  A path
that begins with a slash is followed from the root, and any other one from the working directory.

`Store.find?` follows a path as far as it leads and gives what is there.  One that is too long leads
nowhere.
-/

namespace SiblingQuery

/-- What a path leads to. -/
inductive Item where
  | file (octets : List UInt8)
  | directory
deriving DecidableEq, Repr, Inhabited

/-- The names that lead to an entry from the root. -/
abbrev Address := List String

/-- The files and directories below the root, which is itself always there. -/
structure Store where
  entries : List (Address × Item)
  /-- The address of the working directory. -/
  here : Address
deriving DecidableEq, Repr, Inhabited

/-! ## Path texts -/

namespace PathText

/-- The pieces between slashes. -/
def pieces (path : String) : List String := (Text.splitOn '/' path.toList).map String.ofList

/-- The pieces that go anywhere. -/
def names (path : String) : List String := (pieces path).filter fun piece =>
  piece ≠ "" && piece ≠ "."

/-- The path begins with a slash. -/
def isAbsolute (path : String) : Bool := path.startsWith "/"

/-- The last name of the path, unless it goes back up. -/
def fileName? (path : String) : Option String :=
  match (names path).getLast? with
  | some name => if name = ".." then none else some name
  | none => none

/-- The most octets that a path may have. -/
def maxOctets : Nat := 4095

/-- The path has too many octets to lead anywhere. -/
def isTooLong (path : String) : Bool := maxOctets < path.utf8ByteSize

/-- The path can only lead to a directory, because it does not end with a name. -/
def needsDirectory (path : String) : Bool :=
  match (pieces path).getLast? with
  | some last => last = "" || last = "." || last = ".."
  | none => true

/-- What follows the last point of a name, unless that is the only one and stands first. -/
def extension? (name : String) : Option String :=
  match Text.splitOn '.' name.toList with
  | [_] => none
  | [[], _] => none
  | parts => parts.getLast?.map String.ofList

end PathText

/-! ## Entries -/

namespace Store

/-- A store with nothing in it but a working directory. -/
def empty : Store := ⟨[(["work"], .directory)], ["work"]⟩

/-- The entry at an address. -/
def get? (store : Store) (address : Address) : Option Item :=
  if address = [] then some .directory
  else (store.entries.find? (·.1 = address)).map Prod.snd

/-- Puts an entry at an address, in place of one that is there. -/
def put (store : Store) (address : Address) (item : Item) : Store :=
  { store with entries := store.entries.filter (·.1 ≠ address) ++ [(address, item)] }

/-- Removes the entry at an address. -/
def erase (store : Store) (address : Address) : Store :=
  { store with entries := store.entries.filter (·.1 ≠ address) }

/-- Moves the entry at one address to another, in place of one that is there. -/
def rename (store : Store) (source target : Address) : Store :=
  match store.get? source with
  | some item => (store.erase source).put target item
  | none => store

/-- Puts an entry where names lead from the working directory, and directories on the way there. -/
def create (store : Store) (names : List String) (item : Item) : Store :=
  let address := store.here ++ names
  let onTheWay := (List.range address.length).map address.take
  let store := onTheWay.foldl
    (fun store above => if (store.get? above).isSome then store else store.put above .directory)
    store
  store.put address item

/-- Follows names from an address.  Every step needs a directory to start from, and above the root
there is the root again. -/
def follow? (store : Store) : Address → List String → Option Address
  | start, [] => some start
  | start, name :: names =>
    match store.get? start with
    | some .directory =>
      store.follow? (if name = ".." then start.dropLast else start ++ [name]) names
    | _ => none

/-- The address that a path starts from. -/
def start (store : Store) (path : String) : Address :=
  if PathText.isAbsolute path then [] else store.here

/-- The address and entry that a path leads to. -/
def find? (store : Store) (path : String) : Option (Address × Item) :=
  if path = "" ∨ PathText.isTooLong path then none
  else
    match store.follow? (store.start path) (PathText.names path) with
    | none => none
    | some address =>
      match store.get? address with
      | some .directory => some (address, .directory)
      | some (.file octets) =>
        if PathText.needsDirectory path then none else some (address, .file octets)
      | none => none

/-- What a path leads to. -/
def item? (store : Store) (path : String) : Option Item := (store.find? path).map Prod.snd

/-- Whether one address stands before another: name by name, and above before below. -/
def before : Address → Address → Bool
  | [], _ => true
  | _ :: _, [] => false
  | a :: as, b :: bs => a < b || (a = b && before as bs)

/-- The files below the working directory with the names that lead to them from there, in order. -/
def files (store : Store) : List (Address × List UInt8) :=
  let found := store.entries.filterMap fun (address, item) =>
    match item with
    | .file octets =>
      if store.here.isPrefixOf address then some (address.drop store.here.length, octets) else none
    | .directory => none
  found.mergeSort fun a b => before a.1 b.1

end Store

end SiblingQuery
