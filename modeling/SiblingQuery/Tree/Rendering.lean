import SiblingQuery.Json.Printer
import SiblingQuery.Tree.Format
import SiblingQuery.Yaml.Printer

/-!
# Lists of nodes as text

What a query finds is written as one list: a JSON array, indented or on one line, or a YAML
sequence.  The text ends with a line feed, also where a YAML block ends with another line end.
-/

namespace SiblingQuery

namespace Node

/-- A text with a line feed at its end. -/
def endLine (text : List Char) : List Char :=
  if text.getLast? = some '\n' then text else text ++ ['\n']

/-- The text of a list of nodes; `pretty` matters for JSON only. -/
def renderChars (nodes : List Node) (format : Format) (pretty : Bool) : List Char :=
  match format with
  | .json =>
    let document := Json.arr (listToJson nodes)
    endLine (if pretty then document.pretty 0 else document.compact)
  | .yaml => endLine (Yaml.sequenceText (listToJson nodes))

/-- The text of a list of nodes; `pretty` matters for JSON only. -/
def render (nodes : List Node) (format : Format) (pretty : Bool) : String :=
  String.ofList (renderChars nodes format pretty)

end Node

end SiblingQuery
