import SiblingQuery.Text.Blank
import SiblingQuery.Tree.FromJson
import SiblingQuery.Tree.FromYaml

/-!
# Formats of tree documents

The text formats in which a tree is read and written, and their names.
-/

namespace SiblingQuery

/-- A text format of trees. -/
inductive Format where
  | json
  | yaml
deriving DecidableEq, Repr, Inhabited

/-- A name that is no format's, in small letters. -/
structure FormatError where
  name : String
deriving DecidableEq, Repr, Inhabited

/-- What is said about a name that is no format's. -/
def FormatError.message (e : FormatError) : String :=
  "Unknown format '" ++ e.name ++ "', expected 'json' or 'yaml'"

/-- A text that is not a tree in its format. -/
structure ParseError where
  format : Format
deriving DecidableEq, Repr, Inhabited

namespace Format

/-- The name of a format. -/
def name : Format → String
  | .json => "json"
  | .yaml => "yaml"

/-- The format that a name in any case means. -/
def ofName (text : String) : Except FormatError Format :=
  let lower := Text.lowerAscii text
  if lower = "json" then .ok .json
  else if lower = "yaml" ∨ lower = "yml" then .ok .yaml
  else .error ⟨lower⟩

end Format

/-- What is said about a text that is not a tree. -/
def ParseError.message (e : ParseError) : String :=
  match e.format with
  | .json => "Failed to parse JSON"
  | .yaml => "Failed to parse YAML"

namespace Format

/-- The tree that a text holds in a format. -/
def parse (format : Format) (text : String) : Except ParseError Node :=
  let node? := match format with
    | .json => Node.parseJson? text
    | .yaml => Node.parseYaml? text
  match node? with
  | some node => .ok node
  | none => .error ⟨format⟩

/-- The list of trees that a text holds in a format. -/
def parseList (format : Format) (text : String) : Except ParseError (List Node) :=
  let nodes? := match format with
    | .json => Node.parseJsonList? text
    | .yaml => Node.parseYamlList? text
  match nodes? with
  | some nodes => .ok nodes
  | none => .error ⟨format⟩

end Format

end SiblingQuery
