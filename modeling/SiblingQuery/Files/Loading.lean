import SiblingQuery.Files.Store
import SiblingQuery.Gzip.Member
import SiblingQuery.Text.Utf8
import SiblingQuery.Tree.Format

/-!
# Loading trees

A tree is loaded from a file or from octets that came without a name.

* For a file the name decides: an extension `gz` means a gzip member, and the ending before it
  means YAML or JSON.
* Without a name the content decides: octets that begin as a gzip member are decompressed, and a
  text that is no JSON tree is read as YAML.

`announce` is what is reported once the content of a file has been read, whether or not it is a
tree.
-/

namespace SiblingQuery

/-- Why no tree could be loaded. -/
inductive LoadError where
  /-- There is no file, and the standard input is a terminal. -/
  | noInput
  /-- The standard input cannot be read to its end. -/
  | unreadInput
  /-- A plain file that is missing, a directory, or no text. -/
  | unreadable
  /-- A compressed file that is missing. -/
  | unopened
  /-- A compressed file that is no gzip member or holds no text. -/
  | corruptFile
  /-- A file with a text that is no tree in the format of its name. -/
  | unparsed (path : String) (error : ParseError)
  /-- Octets that begin as a gzip member and are none, or one that holds no text. -/
  | corruptInput
  /-- Octets that are no text. -/
  | notText
  /-- A text that is a tree in no format. -/
  | noTree
deriving DecidableEq, Repr, Inhabited

namespace LoadError

/-- What is said first about a failure to load. -/
def context : LoadError → String
  | .noInput => "No input: pass a FILE or pipe a unist tree on stdin (see --help)"
  | .unreadInput => "Failed to read from stdin"
  | .unreadable => "Failed to read file"
  | .unopened => "Failed to open gzipped file"
  | .corruptFile => "Failed to decompress gzipped file - file may be corrupted"
  | .unparsed path _ => "Failed to load " ++ path
  | .corruptInput => "Failed to decompress gzipped input"
  | .notText => "Invalid UTF-8 in input"
  | .noTree => "Failed to parse input: it is neither a JSON nor a YAML unist tree"

/-- The failure to parse behind a failure to load. -/
def parseError? : LoadError → Option ParseError
  | .unparsed _ error => some error
  | .noTree => some ⟨.yaml⟩
  | _ => none

/-- Everything that is said about a failure to load. -/
def message (e : LoadError) : String :=
  match e.parseError? with
  | some error => e.context ++ ": " ++ error.message
  | none => e.context

end LoadError

/-! ## Names -/

/-- The format that a path means by its ending, not counting one `.gz`. -/
def Format.ofPath (path : String) : Format :=
  let base := if path.endsWith ".gz" then (path.dropEnd 3).copy else path
  if base.endsWith ".yaml" || base.endsWith ".yml" then .yaml else .json

/-- The path names a compressed file. -/
def namesGzip (path : String) : Bool :=
  ((PathText.fileName? path).bind PathText.extension?) = some "gz"

/-! ## Files -/

/-- What is reported about a file whose content has been read. -/
def announce (path : String) : String :=
  "Loading " ++ path ++ " as " ++ (Format.ofPath path).name ++
    (if namesGzip path then " (gzip)" else "")

/-- The text of what a path leads to, decompressed if its name says so. -/
def textOfItem (path : String) (item : Option Item) : Except LoadError String :=
  if namesGzip path then
    match item with
    | none => .error .unopened
    | some .directory => .error .corruptFile
    | some (.file octets) =>
      match (Gzip.decompress? octets).bind Utf8.decode? with
      | some text => .ok text
      | none => .error .corruptFile
  else
    match item with
    | some (.file octets) =>
      match Utf8.decode? octets with
      | some text => .ok text
      | none => .error .unreadable
    | _ => .error .unreadable

/-- The tree in the text of a file. -/
def parseFile (path text : String) : Except LoadError Node :=
  match (Format.ofPath path).parse text with
  | .ok node => .ok node
  | .error error => .error (.unparsed path error)

/-- The tree of what a path leads to. -/
def loadItem (path : String) (item : Option Item) : Except LoadError Node :=
  match textOfItem path item with
  | .ok text => parseFile path text
  | .error e => .error e

/-- Loads the tree of a file. -/
def Store.loadTree (store : Store) (path : String) : Except LoadError Node :=
  loadItem path (store.item? path)

/-! ## Octets without a name -/

/-- The text of octets without a name. -/
def textOfOctets (octets : List UInt8) : Except LoadError String :=
  if Gzip.isMember octets then
    match (Gzip.decompress? octets).bind Utf8.decode? with
    | some text => .ok text
    | none => .error .corruptInput
  else
    match Utf8.decode? octets with
    | some text => .ok text
    | none => .error .notText

/-- The tree of a text without a name: JSON if it is, and otherwise YAML. -/
def parseUnnamed (text : String) : Except LoadError Node :=
  match Node.parseJson? text with
  | some node => .ok node
  | none =>
    match Node.parseYaml? text with
    | some node => .ok node
    | none => .error .noTree

/-- Loads the tree of octets without a name. -/
def loadOctets (octets : List UInt8) : Except LoadError Node :=
  match textOfOctets octets with
  | .ok text => parseUnnamed text
  | .error e => .error e

end SiblingQuery
