/-!
# Texts as octets

Files and streams hold octets; a text is stored as its UTF-8 encoding.  `Utf8.decode?` is the
inverse of `Utf8.encode` and refuses every other sequence of octets.
-/

namespace SiblingQuery

namespace Utf8

/-- The octets of a text. -/
def encode (text : String) : List UInt8 := text.toUTF8.data.toList

/-- The text that some octets encode. -/
def decode? (octets : List UInt8) : Option String := String.fromUTF8? ⟨octets.toArray⟩

end Utf8

end SiblingQuery
