import SiblingQuery.Text.Utf8

/-!
# Tokens of YAML text

The tokens carry the block structure explicitly: the start of a block collection is a token where
the indentation grows, and its end where the indentation falls back.  A key is announced by a
token of its own in front of it, also where the text has no mark for it.
-/

namespace SiblingQuery

namespace Yaml

/-- A tag, or a part of one.  Its octets need not be the UTF-8 form of a text. -/
structure Tag where
  octets : List UInt8
deriving DecidableEq, Repr, Inhabited

namespace Tag

/-- The tag that ASCII characters write. -/
def ofChars (chars : List Char) : Tag := ⟨chars.map fun c => c.toNat.toUInt8⟩

/-- The tag that an ASCII text writes. -/
def ofString (text : String) : Tag := ofChars text.toList

/-- A tag with more behind it. -/
def append (tag more : Tag) : Tag := ⟨tag.octets ++ more.octets⟩

/-- Begins with an exclamation mark. -/
def isLocal (tag : Tag) : Bool := tag.octets.head? = some 0x21

/-- A tag of the document's own: the rest after its exclamation mark is a text. -/
def isPrivate (tag : Tag) : Bool := tag.isLocal && (Utf8.decode? (tag.octets.drop 1)).isSome

end Tag

/-- How a scalar is written. -/
inductive Style where
  | plain
  | singleQuoted
  | doubleQuoted
  | literal
  | folded
deriving DecidableEq, Repr, Inhabited

/-- A token of YAML text. -/
inductive Token where
  | streamEnd
  | version (major minor : Nat)
  | tagDirective (handle : String) (expansion : Tag)
  | documentStart | documentEnd
  | blockSequenceStart | blockMappingStart | blockEnd
  | flowSequenceStart | flowSequenceEnd | flowMappingStart | flowMappingEnd
  | blockEntry | flowEntry | key | value
  | alias (name : String)
  | anchor (name : String)
  | tag (handle : String) (suffix : Tag)
  | scalar (style : Style) (text : String)
deriving DecidableEq, Repr, Inhabited

end Yaml

end SiblingQuery
