import SiblingQuery.Tree.Entry
import SiblingQuery.Yaml.Resolve
import SiblingQuery.Yaml.Token.Lexer
import SiblingQuery.Yaml.Tree

/-!
# Trees from YAML text

The unist shape is the same as for JSON text; what differs is what stands for what.  A type and the
name of a field are the text of a scalar, whatever it looks like.  Values of fields are resolved
by `Yaml.Scalar.resolve?`, and the keys inside them have to resolve to texts.  A plain scalar
without text can stand for a mapping or a sequence that has nothing in it.

Aliases are replaced by what they stand for.  Two bounds keep that finite: collections may be
nested `maxDepth` deep, and a document may follow a hundred aliases for each of its steps.
-/

namespace SiblingQuery

namespace Yaml

/-- How deep collections may be nested, aliases replaced. -/
def maxDepth : Nat := 128

/-- A reading that may fail and that spends aliases. -/
abbrev Reading := StateT Nat Option

namespace Reading

/-- The reading that fails. -/
def refuse {α : Type} : Reading α := fun _ => none

/-- An answer that may be missing. -/
def ofOption {α : Type} (answer : Option α) : Reading α := fun left => answer.map (·, left)

/-- The node itself, or what it stands for if it is an alias. -/
def target (document : Document) : Tree Nat → Reading (Tree Nat)
  | .alias number => fun left =>
    match left with
    | 0 => none
    | left + 1 => (document.anchored? number).map (·, left)
  | tree => pure tree

end Reading

namespace Tree

/-- A plain scalar without text. -/
def isVoid : Tree Nat → Bool
  | .scalar _ _ style text => style = .plain && text = ""
  | _ => false

/-! ## Typed places -/

/-- The text of a scalar. -/
def text (document : Document) (tree : Tree Nat) : Reading String := do
  match ← Reading.target document tree with
  | .scalar _ _ _ text => return text
  | _ => Reading.refuse

/-- An unsigned 64-bit word: a plain scalar, or a literal one with the tag of integers. -/
def word (document : Document) (tree : Tree Nat) : Reading Nat := do
  match ← Reading.target document tree with
  | .scalar _ tag style text =>
    if style = .plain || (style = .literal && tag = some (Scalar.typeTag "int")) then
      Reading.ofOption (Scalar.word? text)
    else Reading.refuse
  | _ => Reading.refuse

/-- Whether anything stands in a place that may be left empty.  A plain scalar that is empty or
looks like null says no, but its tag may contradict. -/
def isPresent : Tree Nat → Option Bool
  | .scalar _ tag .plain text =>
    match tag with
    | none => some (text ≠ "" && !Scalar.isNull text)
    | some tag =>
      if tag = Scalar.typeTag "null" then if Scalar.isNull text then some false else none
      else some true
  | _ => some true

/-- What stands in a place that may be left empty. -/
def optional {α : Type} (document : Document) (read : Tree Nat → Reading α) (tree : Tree Nat) :
    Reading (Option α) := do
  let tree ← Reading.target document tree
  if ← Reading.ofOption (isPresent tree) then return some (← read tree) else return none

/-- The entries of a mapping. -/
def entries : Tree Nat → Reading (List (Tree Nat × Tree Nat))
  | .mapping _ _ entries => return entries
  | tree => if tree.isVoid then return [] else Reading.refuse

/-- The items of a sequence. -/
def items : Tree Nat → Reading (List (Tree Nat))
  | .sequence _ _ items => return items
  | tree => if tree.isVoid then return [] else Reading.refuse

/-! ## Values -/

/-- The value of a tree, at most `depth` collections deep. -/
def value (document : Document) : Nat → Tree Nat → Reading Json
  | depth, tree => do
    match ← Reading.target document tree with
    | .scalar _ tag style text => Reading.ofOption (Scalar.resolve? tag style text)
    | .sequence _ tag items =>
      match depth with
      | 0 => Reading.refuse
      | depth + 1 =>
        if tag.any Tag.isPrivate then Reading.refuse
        else return .arr (← items.mapM (value document depth))
    | .mapping _ tag entries =>
      match depth with
      | 0 => Reading.refuse
      | depth + 1 =>
        if tag.any Tag.isPrivate then Reading.refuse
        else
          let members ← entries.mapM fun (key, item) => do
            match ← value document depth key with
            | .str key => return (key, ← value document depth item)
            | _ => Reading.refuse
          return .obj (Members.sorted members)
    | .alias _ => Reading.refuse

end Tree

end Yaml

open Yaml

/-! ## Points and spans -/

/-- What an entry of a mapping says about a point. -/
def Point.entryOfTree (document : Document) (entry : Yaml.Tree Nat × Yaml.Tree Nat) :
    Reading Point.Entry := do
  let key ← entry.1.text document
  if key = "line" then return .line (← entry.2.word document)
  else if key = "column" then return .column (← entry.2.word document)
  else if key = "offset" then
    return .offset (← Tree.optional document (Tree.word document) entry.2)
  else return .other

/-- A point. -/
def Point.ofTree (document : Document) (depth : Nat) (tree : Yaml.Tree Nat) :
    Reading Point := do
  let tree ← Reading.target document tree
  if depth = 0 && !tree.isVoid then Reading.refuse
  else
    let entries ← (← tree.entries).mapM (Point.entryOfTree document)
    Reading.ofOption (Point.ofEntries? entries)

/-- What an entry of a mapping says about a span. -/
def Span.entryOfTree (document : Document) (depth : Nat)
    (entry : Yaml.Tree Nat × Yaml.Tree Nat) : Reading Span.Entry := do
  let key ← entry.1.text document
  if key = "start" then return .start (← Point.ofTree document depth entry.2)
  else if key = "end" then return .stop (← Point.ofTree document depth entry.2)
  else return .extra key (← Tree.value document depth entry.2)

/-- A span. -/
def Span.ofTree (document : Document) (depth : Nat) (tree : Yaml.Tree Nat) :
    Reading Span := do
  let tree ← Reading.target document tree
  if depth = 0 && !tree.isVoid then Reading.refuse
  else
    let entries ← (← tree.entries).mapM (Span.entryOfTree document (depth - 1))
    Reading.ofOption (Span.ofEntries? entries)

/-! ## Nodes -/

namespace Node

/-- A node, at most `depth` collections deep. -/
def ofTree (document : Document) : Nat → Yaml.Tree Nat → Reading Node
  | depth, tree => do
    let tree ← Reading.target document tree
    match depth with
    | 0 => if tree.isVoid then return leaf "" else Reading.refuse
    | depth + 1 =>
      let entries ← (← tree.entries).mapM fun (key, item) => do
        let key ← key.text document
        if key = "type" then return Node.Entry.kind (← item.text document)
        else if key = "children" then
          return Node.Entry.children (← Tree.optional document (fun list => do
            match depth with
            | 0 => if list.isVoid then return [] else Reading.refuse
            | depth + 1 => (← list.items).mapM (ofTree document depth)) item)
        else if key = "position" then
          return Node.Entry.position
            (← Tree.optional document (Span.ofTree document depth) item)
        else return Node.Entry.field key (← Tree.value document depth item)
      Reading.ofOption (Node.ofEntries? entries)

/-- Reads a document with the aliases that it may follow. -/
def readDocument? {α : Type} (text : String) (read : Document → Reading α) : Option α :=
  match (Yaml.Token.scan text.toList).bind Tree.ofTokens? with
  | none => none
  | some named =>
    match Document.ofNamed? named with
    | none => none
    | some document => ((read document).run (100 * document.root.steps)).map Prod.fst

/-- The node that a YAML text describes. -/
def parseYaml? (text : String) : Option Node :=
  readDocument? text fun document => ofTree document Yaml.maxDepth document.root

/-- The nodes that a YAML sequence describes. -/
def parseYamlList? (text : String) : Option (List Node) :=
  readDocument? text fun document => do
    (← document.root.items).mapM (ofTree document (Yaml.maxDepth - 1))

end Node

end SiblingQuery
