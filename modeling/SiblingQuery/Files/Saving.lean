import SiblingQuery.Files.Store
import SiblingQuery.Gzip.Member
import SiblingQuery.Text.Utf8

/-!
# Saving text

A text is saved whole or not at all.  It first goes to a fresh file in the directory of its
target, which then takes the target's place; when a step fails, the fresh file is removed.  A path
that ends with `.gz` is saved as a gzip member.

`Store.saveOn` takes these steps on a `Medium`, where any of them may fail.  A failure of the last
step still owns the fresh file, which goes when the failure is released.  `Store.saveText` is
saving where only the store itself stands in the way.  Printing may fail on a medium as well.
-/

namespace SiblingQuery

/-- Why a text could not be saved. -/
inductive SaveError where
  /-- There is no directory to put a fresh file in, or no fresh file can be put there. -/
  | noDirectory
  /-- The text could not be written to the fresh file. -/
  | unwritten
  /-- The compressed text could not be written to the fresh file. -/
  | uncompressed
  /-- The end of the compressed text could not be written to the fresh file. -/
  | unfinished
  /-- The fresh file cannot take the place of its target. -/
  | noTarget
deriving DecidableEq, Repr, Inhabited

/-- What is said about a failure to save. -/
def SaveError.message : SaveError → String
  | .noDirectory => "Failed to create temp file"
  | .unwritten => "Failed to write temp file"
  | .uncompressed => "Failed to write compressed data"
  | .unfinished => "Failed to finish compression"
  | .noTarget => "Failed to rename temp file"

/-! ## What is written, and where -/

/-- The octets that a text is saved as under a path. -/
def savedOctets (path text : String) : List UInt8 :=
  let octets := Utf8.encode text
  if path.endsWith ".gz" then Gzip.compress octets else octets

/-- A name that an entry of a directory can have. -/
def PathText.isEntryName (name : String) : Bool :=
  name ≠ "" && name ≠ "." && name ≠ ".." && name.utf8ByteSize ≤ 255 &&
    !name.toList.contains '\x00'

/-- The text of a path up to its last name, without what goes nowhere at its end. -/
def PathText.parent (path : String) : String :=
  let goesNowhere (piece : String) : Bool := piece = "" || piece = "."
  let upward := (PathText.pieces path).reverse.dropWhile goesNowhere
  "/".intercalate ((upward.drop 1).dropWhile goesNowhere).reverse

namespace Store

/-- How many octets the name of a fresh file takes, with the slash before it. -/
def freshNameOctets : Nat := 11

/-- The directory in which a path's target lies: the one that the names before the last lead to, or
the working directory if there are none at all.  There has to be room in a path for a fresh file in
it. -/
def targetDirectory? (store : Store) (path : String) : Option Address :=
  if PathText.maxOctets < (PathText.parent path).utf8ByteSize + freshNameOctets then none
  else
    let names := PathText.names path
    match store.follow? (if names = [] then store.here else store.start path) names.dropLast with
    | some address => if store.get? address = some .directory then some address else none
    | none => none

/-- The address of a path's target in its directory: there is a name for it, and no directory in
its place. -/
def target? (store : Store) (directory : Address) (path : String) : Option Address :=
  if PathText.needsDirectory path || PathText.isTooLong path then none
  else
    match PathText.fileName? path with
    | some name =>
      let address := directory ++ [name]
      if PathText.isEntryName name && store.get? address ≠ some .directory then some address
      else none
    | none => none

end Store

/-! ## Media -/

/-- What saving and printing rely on beyond the store.  Each step may fail for reasons of its own. -/
structure Medium where
  /-- The name that a fresh file in a directory gets; `none` when none can be made. -/
  freshName? : Store → Address → Option String
  /-- The gzip member that holds some octets. -/
  compress : List UInt8 → List UInt8
  /-- What a file is left with when writing to it fails, if it does. -/
  torn? : Option (List UInt8)
  /-- What a file is left with when the end of a gzip member fails to be written, if it does. -/
  cutOff? : Option (List UInt8)
  /-- Whether a file can be moved at all. -/
  moves : Bool
  /-- What the standard output has taken of a text when printing it fails, if it does. -/
  cut? : String → Option String

namespace Medium

/-- The directory of a path's target, and the address of a fresh file in it. -/
def freshFile? (medium : Medium) (store : Store) (path : String) : Option (Address × Address) :=
  match store.targetDirectory? path with
  | none => none
  | some directory =>
    (medium.freshName? store directory).map fun name => (directory, directory ++ [name])

/-- What a file holds after a text has been written to it, and how that failed if it did. -/
def written (medium : Medium) (path text : String) : List UInt8 × Option SaveError :=
  let octets := Utf8.encode text
  if path.endsWith ".gz" then
    match medium.torn?, medium.cutOff? with
    | some torn, _ => (torn, some .uncompressed)
    | none, some torn => (torn, some .unfinished)
    | none, none => (medium.compress octets, none)
  else
    match medium.torn? with
    | some torn => (torn, some .unwritten)
    | none => (octets, none)

/-- The store after a fresh file has taken the place of its target. -/
def moved? (medium : Medium) (store : Store) (directory fresh : Address) (path : String) :
    Option Store :=
  if medium.moves then (store.target? directory path).map (store.rename fresh) else none

/-- A name for a fresh file. -/
def trialName (n : Nat) : String := ".tmp" ++ toString n

/-- A medium on which no step fails.  One name more is tried than there are entries. -/
def reliable : Medium where
  freshName? store directory :=
    ((List.range (store.entries.length + 1)).map trialName).find? fun name =>
      (store.get? (directory ++ [name])).isNone
  compress := Gzip.compress
  torn? := none
  cutOff? := none
  moves := true
  cut? _ := none

end Medium

/-! ## Saving -/

/-- A failure to save, with the fresh file that it owns if that is still there. -/
structure SaveFailure where
  error : SaveError
  fresh? : Option Address
deriving DecidableEq, Repr, Inhabited

/-- The store once a failure is done with: the file that it owns is removed. -/
def SaveFailure.release (failure : SaveFailure) (store : Store) : Store :=
  match failure.fresh? with
  | none => store
  | some address => store.erase address

namespace Store

/-- Saves a text under a path, step by step, and gives the store that is left. -/
def saveOn (medium : Medium) (store : Store) (path text : String) :
    Except SaveFailure Unit × Store :=
  match medium.freshFile? store path with
  | none => (.error ⟨.noDirectory, none⟩, store)
  | some (directory, fresh) =>
    let created := store.put fresh (.file [])
    let (octets, error?) := medium.written path text
    let filled := created.put fresh (.file octets)
    match error? with
    | some error => (.error ⟨error, none⟩, filled.erase fresh)
    | none =>
      match medium.moved? filled directory fresh path with
      | none => (.error ⟨.noTarget, some fresh⟩, filled)
      | some after => (.ok (), after)

/-- Saves a text under a path. -/
def saveText (store : Store) (path text : String) : Except SaveError Store :=
  match store.saveOn .reliable path text with
  | (.ok (), after) => .ok after
  | (.error failure, _) => .error failure.error

end Store

end SiblingQuery
