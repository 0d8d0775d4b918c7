import SiblingQuery.Gzip.Checksum
import SiblingQuery.Gzip.Inflate

/-!
# Gzip members

A gzip file holds a member: a header, compressed data, and the checksum and length of what was
compressed.  `decompress?` reads the first member and ignores what follows it; `compress` writes a
member without optional header fields.
-/

namespace SiblingQuery

namespace Gzip

/-! ## Headers -/

/-- A number as octets, the lowest first. -/
def lowestFirst : Nat → Nat → List UInt8
  | 0, _ => []
  | width + 1, n => n.toUInt8 :: lowestFirst width (n / 256)

/-- The longest text in a header. -/
def maxHeaderText : Nat := 65535

/-- What follows a text that ends with a zero octet. -/
def afterText? (octets : List UInt8) : Option (List UInt8) :=
  match octets.dropWhile (· ≠ 0) with
  | _ :: rest => if octets.length - rest.length ≤ maxHeaderText + 1 then some rest else none
  | [] => none

/-- What follows an extra field, which begins with its length. -/
def afterExtra? : List UInt8 → Option (List UInt8)
  | low :: high :: rest =>
    let length := littleEndian low high
    if length ≤ rest.length then some (rest.drop length) else none
  | _ => none

/-- What follows the optional fields that the flags announce.  The last of them is the lower half
of the checksum of the header before it. -/
def afterOptional? (flags : Nat) (header rest : List UInt8) : Option (List UInt8) := do
  let rest ← if flags.testBit 2 then afterExtra? rest else some rest
  let rest ← if flags.testBit 3 then afterText? rest else some rest
  let rest ← if flags.testBit 4 then afterText? rest else some rest
  if flags.testBit 1 then
    match rest with
    | low :: high :: after =>
      let covered := header.take (header.length - rest.length)
      if littleEndian low high = (crc32 covered).toNat % 65536 then some after else none
    | _ => none
  else some rest

/-- What follows the header of a member. -/
def afterHeader? (octets : List UInt8) : Option (List UInt8) :=
  match octets with
  | 0x1f :: 0x8b :: 8 :: flags :: _ :: _ :: _ :: _ :: _ :: _ :: rest =>
    if flags.toNat < 32 then afterOptional? flags.toNat octets rest else none
  | _ => none

/-! ## Members -/

/-- The octets that the first member of a file holds. -/
def decompress? (octets : List UInt8) : Option (List UInt8) :=
  match (afterHeader? octets).bind inflate? with
  | none => none
  | some (content, rest) =>
    let trailer := lowestFirst 4 (crc32 content).toNat ++ lowestFirst 4 content.length
    if trailer.isPrefixOf rest then some content else none

/-- A member that holds some octets. -/
def compress (octets : List UInt8) : List UInt8 :=
  [0x1f, 0x8b, 8, 0, 0, 0, 0, 0, 0, 255] ++ deflateStored octets ++
    lowestFirst 4 (crc32 octets).toNat ++ lowestFirst 4 octets.length

/-- Begins as every gzip member does. -/
def isMember (octets : List UInt8) : Bool := octets.take 2 = [0x1f, 0x8b]

end Gzip

end SiblingQuery
