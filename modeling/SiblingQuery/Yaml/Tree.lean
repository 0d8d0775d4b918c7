import SiblingQuery.Yaml.Token

/-!
# YAML documents as trees

A document is a tree of scalars, sequences and mappings, where an alias stands for a node that
carries its anchor.  `Tree` is parametric in what names an anchor.

* `Tree.ofTokens?` reads the tokens of a stream that holds at most one document; anchors are the
  names that the text gives them.
* `Document.ofNamed?` replaces the names by numbers.  A new anchor takes as its number how many names
  are in use before it, so a name that is used again can share its number with the next new name.
  An alias refers to the number that its name has at that point.
* `Document.anchored?` looks a number up.  If several nodes share it, the last one in the document
  stands.
-/

namespace SiblingQuery

namespace Yaml

/-- A node of a document; `α` names anchors. -/
inductive Tree (α : Type) where
  | alias (name : α)
  | scalar (anchor : Option α) (tag : Option Tag) (style : Style) (text : String)
  | sequence (anchor : Option α) (tag : Option Tag) (items : List (Tree α))
  | mapping (anchor : Option α) (tag : Option Tag) (entries : List (Tree α × Tree α))
deriving Repr, Inhabited

namespace Tree

/-! ## From tokens -/

/-- A node that is not there: a plain scalar without text. -/
def absent : Tree String := .scalar none none .plain ""

/-- What a stream makes of tags: each handle with what it expands to. -/
abbrev Handles := List (String × Tag)

/-- The handles that need no directive. -/
def defaultHandles : Handles :=
  [("!", Tag.ofString "!"), ("!!", Tag.ofString "tag:yaml.org,2002:")]

/-- The tag that a handle and a suffix mean. -/
def expand? (handles : Handles) (handle : String) (suffix : Tag) : Option Tag :=
  if handle = "" then some suffix
  else
    match handles.find? (·.1 = handle) with
    | some (_, expansion) => some (expansion.append suffix)
    | none => none

/-- The anchor and the tag in front of a node, in either order. -/
def properties? (handles : Handles) :
    List Token → Option (Option String × Option Tag × List Token)
  | .anchor name :: .tag handle suffix :: rest =>
    (expand? handles handle suffix).map fun tag => (some name, some tag, rest)
  | .tag handle suffix :: .anchor name :: rest =>
    (expand? handles handle suffix).map fun tag => (some name, some tag, rest)
  | .anchor name :: rest => some (some name, none, rest)
  | .tag handle suffix :: rest =>
    (expand? handles handle suffix).map fun tag => (none, some tag, rest)
  | rest => some (none, none, rest)

/-- A token that ends an entry of a block sequence without a node. -/
def endsBlockItem : List Token → Bool
  | .blockEntry :: _ | .blockEnd :: _ => true
  | _ => false

/-- A token that ends a key or a value of a block mapping without a node. -/
def endsBlockPair : List Token → Bool
  | .key :: _ | .value :: _ | .blockEnd :: _ => true
  | _ => false

/-- A token that ends an entry of a sequence which shares the indentation of its key. -/
def endsIndentless : List Token → Bool
  | .blockEntry :: _ | .key :: _ | .value :: _ | .blockEnd :: _ => true
  | _ => false

/-- A token that ends a key or value between square brackets without a node. -/
def endsFlowItem : List Token → Bool
  | .flowEntry :: _ | .flowSequenceEnd :: _ => true
  | _ => false

/-- A token that ends a key or value between braces without a node. -/
def endsFlowPair : List Token → Bool
  | .flowEntry :: _ | .flowMappingEnd :: _ => true
  | _ => false

mutual

/-- A node.  Block collections may begin where `block` says so, and a sequence that shares its
key's indentation where `indentless` does. -/
def node? (handles : Handles) (block indentless : Bool) :
    Nat → List Token → Option (Tree String × List Token)
  | 0, _ => none
  | _ + 1, .alias name :: rest => some (.alias name, rest)
  | fuel + 1, tokens =>
    match properties? handles tokens with
    | none => none
    | some (anchor, tag, rest) =>
      match rest with
      | .blockEntry :: _ =>
        if indentless then
          (indentlessItems? handles fuel rest).map fun (items, rest) =>
            (.sequence anchor tag items, rest)
        else if anchor.isSome || tag.isSome then some (.scalar anchor tag .plain "", rest)
        else none
      | .scalar style text :: rest => some (.scalar anchor tag style text, rest)
      | .flowSequenceStart :: rest =>
        (flowItems? handles true fuel rest).map fun (items, rest) =>
          (.sequence anchor tag items, rest)
      | .flowMappingStart :: rest =>
        (flowPairs? handles true fuel rest).map fun (entries, rest) =>
          (.mapping anchor tag entries, rest)
      | .blockSequenceStart :: after =>
        if block then
          (blockItems? handles fuel after).map fun (items, rest) =>
            (.sequence anchor tag items, rest)
        else if anchor.isSome || tag.isSome then some (.scalar anchor tag .plain "", rest)
        else none
      | .blockMappingStart :: after =>
        if block then
          (blockPairs? handles fuel after).map fun (entries, rest) =>
            (.mapping anchor tag entries, rest)
        else if anchor.isSome || tag.isSome then some (.scalar anchor tag .plain "", rest)
        else none
      | rest =>
        if anchor.isSome || tag.isSome then some (.scalar anchor tag .plain "", rest)
        else none
termination_by structural fuel => fuel

/-- The entries of a block sequence, up to its end. -/
def blockItems? (handles : Handles) :
    Nat → List Token → Option (List (Tree String) × List Token)
  | 0, _ => none
  | _ + 1, .blockEnd :: rest => some ([], rest)
  | fuel + 1, .blockEntry :: rest =>
    match (if endsBlockItem rest then some (absent, rest) else node? handles true false fuel rest)
    with
    | none => none
    | some (item, rest) =>
      (blockItems? handles fuel rest).map fun (items, rest) => (item :: items, rest)
  | _, _ => none
termination_by structural fuel => fuel

/-- The entries of a sequence that shares its key's indentation, up to what is no entry. -/
def indentlessItems? (handles : Handles) :
    Nat → List Token → Option (List (Tree String) × List Token)
  | 0, _ => none
  | fuel + 1, .blockEntry :: rest =>
    match (if endsIndentless rest then some (absent, rest) else node? handles true false fuel rest)
    with
    | none => none
    | some (item, rest) =>
      (indentlessItems? handles fuel rest).map fun (items, rest) => (item :: items, rest)
  | _ + 1, rest => some ([], rest)
termination_by structural fuel => fuel

/-- The pairs of a block mapping, up to its end. -/
def blockPairs? (handles : Handles) :
    Nat → List Token → Option (List (Tree String × Tree String) × List Token)
  | 0, _ => none
  | _ + 1, .blockEnd :: rest => some ([], rest)
  | fuel + 1, .key :: rest =>
    match (if endsBlockPair rest then some (absent, rest) else node? handles true true fuel rest)
    with
    | none => none
    | some (key, rest) =>
      match blockValue? handles fuel rest with
      | none => none
      | some (value, rest) =>
        (blockPairs? handles fuel rest).map fun (pairs, rest) => ((key, value) :: pairs, rest)
  | _, _ => none
termination_by structural fuel => fuel

/-- The value of a block mapping's key, if there is one. -/
def blockValue? (handles : Handles) : Nat → List Token → Option (Tree String × List Token)
  | 0, _ => none
  | fuel + 1, .value :: rest =>
    if endsBlockPair rest then some (absent, rest) else node? handles true true fuel rest
  | _ + 1, rest => some (absent, rest)
termination_by structural fuel => fuel

/-- The entries between square brackets; before each but the first there is a comma. -/
def flowItems? (handles : Handles) (first : Bool) :
    Nat → List Token → Option (List (Tree String) × List Token)
  | 0, _ => none
  | _ + 1, .flowSequenceEnd :: rest => some ([], rest)
  | fuel + 1, tokens =>
    match (if first then some tokens else match tokens with
      | .flowEntry :: rest => some rest
      | _ => none) with
    | none => none
    | some (.flowSequenceEnd :: rest) => some ([], rest)
    | some (.key :: rest) =>
      match flowPair? handles fuel rest with
      | none => none
      | some (pair, rest) =>
        (flowItems? handles false fuel rest).map fun (items, rest) =>
          (.mapping none none [pair] :: items, rest)
    | some rest =>
      match node? handles false false fuel rest with
      | none => none
      | some (item, rest) =>
        (flowItems? handles false fuel rest).map fun (items, rest) => (item :: items, rest)
termination_by structural fuel => fuel

/-- A pair that is an entry between square brackets, after the mark of its key.  Where the key is
left out, the token in its place is passed over. -/
def flowPair? (handles : Handles) :
    Nat → List Token → Option ((Tree String × Tree String) × List Token)
  | 0, _ => none
  | fuel + 1, tokens =>
    let key := match tokens with
      | .value :: rest | .flowEntry :: rest | .flowSequenceEnd :: rest => some (absent, rest)
      | _ => node? handles false false fuel tokens
    match key with
    | none => none
    | some (key, .value :: rest) =>
      if endsFlowItem rest then some ((key, absent), rest)
      else (node? handles false false fuel rest).map fun (value, rest) => ((key, value), rest)
    | some (key, rest) => some ((key, absent), rest)
termination_by structural fuel => fuel

/-- The pairs between braces; before each but the first there is a comma. -/
def flowPairs? (handles : Handles) (first : Bool) :
    Nat → List Token → Option (List (Tree String × Tree String) × List Token)
  | 0, _ => none
  | _ + 1, .flowMappingEnd :: rest => some ([], rest)
  | fuel + 1, tokens =>
    match (if first then some tokens else match tokens with
      | .flowEntry :: rest => some rest
      | _ => none) with
    | none => none
    | some (.flowMappingEnd :: rest) => some ([], rest)
    | some (.key :: rest) =>
      match (if endsFlowPair rest || rest.head? = some .value then some (absent, rest)
        else node? handles false false fuel rest) with
      | none => none
      | some (key, rest) =>
        match flowValue? handles fuel rest with
        | none => none
        | some (value, rest) =>
          (flowPairs? handles false fuel rest).map fun (pairs, rest) =>
            ((key, value) :: pairs, rest)
    | some rest =>
      match node? handles false false fuel rest with
      | none => none
      | some (key, rest) =>
        (flowPairs? handles false fuel rest).map fun (pairs, rest) =>
          ((key, absent) :: pairs, rest)
termination_by structural fuel => fuel

/-- The value of a key between braces, if there is one. -/
def flowValue? (handles : Handles) : Nat → List Token → Option (Tree String × List Token)
  | 0, _ => none
  | fuel + 1, .value :: rest =>
    if endsFlowPair rest then some (absent, rest) else node? handles false false fuel rest
  | _ + 1, rest => some (absent, rest)
termination_by structural fuel => fuel

end

/-! ## Documents -/

/-- The directives in front of a document: at most one version, which has to be 1.1 or 1.2, and
handles that are not declared twice. -/
def directives? : Bool → Handles → List Token → Option (Bool × Handles × List Token)
  | seen, handles, .version major minor :: rest =>
    if seen || major ≠ 1 || (minor ≠ 1 && minor ≠ 2) then none
    else directives? true handles rest
  | seen, handles, .tagDirective handle expansion :: rest =>
    if handles.any (·.1 = handle) then none
    else directives? seen (handles ++ [(handle, expansion)]) rest
  | seen, handles, rest => some (seen || !handles.isEmpty, handles, rest)

/-- After the one document of a stream there may only be marks of its end. -/
def endsStream : List Token → Bool
  | [.streamEnd] => true
  | .documentEnd :: rest => endsStream rest
  | _ => false

/-- A document has no node: what follows its start is already its end. -/
def isEmptyDocument : List Token → Bool
  | .version _ _ :: _ | .tagDirective _ _ :: _ | .documentStart :: _ | .documentEnd :: _
  | .streamEnd :: _ => true
  | _ => false

/-- The document of a stream that holds at most one; an empty stream is an absent node. -/
def ofTokens? (tokens : List Token) : Option (Tree String) :=
  let fuel := 2 * tokens.length + 2
  let finish (answer : Option (Tree String × List Token)) : Option (Tree String) :=
    match answer with
    | some (tree, rest) => if endsStream rest then some tree else none
    | none => none
  match directives? false [] tokens with
  | none => none
  | some (directed, handles, rest) =>
    let handles := handles ++ defaultHandles
    match rest with
    | .documentStart :: rest =>
      if isEmptyDocument rest then finish (some (absent, rest))
      else finish (node? handles true false fuel rest)
    | [.streamEnd] => if directed then none else some absent
    | rest => if directed then none else finish (node? handles true false fuel rest)

/-! ## Anchors by number -/

/-- The names in use, each with its number. -/
abbrev Names := List (String × Nat)

/-- Gives an anchor its number: how many names are in use before it. -/
def Names.declare (names : Names) : Option String → Option Nat × Names
  | none => (none, names)
  | some name =>
    let number := names.length
    (some number, (name, number) :: names.filter (·.1 ≠ name))

mutual

/-- A tree with its anchors by number; `none` when an alias has a name that is not in use. -/
def numberFrom? (names : Names) : Tree String → Option (Tree Nat × Names)
  | .alias name =>
    (names.find? (·.1 = name)).map fun found => (.alias found.2, names)
  | .scalar anchor tag style text =>
    let (number, names) := names.declare anchor
    some (.scalar number tag style text, names)
  | .sequence anchor tag items =>
    let (number, names) := names.declare anchor
    (numberItems? names items).map fun (items, names) => (.sequence number tag items, names)
  | .mapping anchor tag entries =>
    let (number, names) := names.declare anchor
    (numberEntries? names entries).map fun (entries, names) =>
      (.mapping number tag entries, names)
termination_by structural tree => tree

/-- Every item with its anchors by number. -/
def numberItems? (names : Names) : List (Tree String) → Option (List (Tree Nat) × Names)
  | [] => some ([], names)
  | item :: items =>
    match numberFrom? names item with
    | none => none
    | some (item, names) =>
      (numberItems? names items).map fun (items, names) => (item :: items, names)
termination_by structural items => items

/-- Every key and value with its anchors by number. -/
def numberEntries? (names : Names) :
    List (Tree String × Tree String) → Option (List (Tree Nat × Tree Nat) × Names)
  | [] => some ([], names)
  | (key, value) :: entries =>
    match numberFrom? names key with
    | none => none
    | some (key, names) =>
      match numberFrom? names value with
      | none => none
      | some (value, names) =>
        (numberEntries? names entries).map fun (entries, names) =>
          ((key, value) :: entries, names)
termination_by structural entries => entries

end


mutual

/-- The last node in the document that carries a number, if it is later than `found`. -/
def lastAnchored (number : Nat) (found : Option (Tree Nat)) : Tree Nat → Option (Tree Nat)
  | .alias _ => found
  | .scalar anchor tag style text =>
    if anchor = some number then some (.scalar anchor tag style text) else found
  | .sequence anchor tag items =>
    lastAnchoredItem number
      (if anchor = some number then some (.sequence anchor tag items) else found) items
  | .mapping anchor tag entries =>
    lastAnchoredEntry number
      (if anchor = some number then some (.mapping anchor tag entries) else found) entries
termination_by structural tree => tree

/-- The last node in some items that carries a number. -/
def lastAnchoredItem (number : Nat) (found : Option (Tree Nat)) :
    List (Tree Nat) → Option (Tree Nat)
  | [] => found
  | item :: items => lastAnchoredItem number (lastAnchored number found item) items
termination_by structural items => items

/-- The last node in some keys and values that carries a number. -/
def lastAnchoredEntry (number : Nat) (found : Option (Tree Nat)) :
    List (Tree Nat × Tree Nat) → Option (Tree Nat)
  | [] => found
  | (key, value) :: entries =>
    lastAnchoredEntry number (lastAnchored number (lastAnchored number found key) value) entries
termination_by structural entries => entries

end

mutual

/-- The number of steps in which a tree is read: one for a scalar or an alias, two for the ends of
a collection. -/
def steps {α : Type} : Tree α → Nat
  | .alias _ | .scalar .. => 1
  | .sequence _ _ items => 2 + itemSteps items
  | .mapping _ _ entries => 2 + entrySteps entries
termination_by structural tree => tree

/-- The steps of all items. -/
def itemSteps {α : Type} : List (Tree α) → Nat
  | [] => 0
  | item :: items => steps item + itemSteps items
termination_by structural items => items

/-- The steps of all keys and values. -/
def entrySteps {α : Type} : List (Tree α × Tree α) → Nat
  | [] => 0
  | (key, value) :: entries => steps key + steps value + entrySteps entries
termination_by structural entries => entries

end

end Tree

/-- A document: a tree with its anchors by number. -/
structure Document where
  root : Tree Nat
deriving Repr, Inhabited

namespace Document

/-- The document that a tree with named anchors is. -/
def ofNamed? (tree : Tree String) : Option Document :=
  (Tree.numberFrom? [] tree).map fun numbered => ⟨numbered.1⟩

/-- The node that an alias with a number stands for. -/
def anchored? (document : Document) (number : Nat) : Option (Tree Nat) :=
  Tree.lastAnchored number none document.root

end Document

end Yaml

end SiblingQuery
