/-!
# The checksum of a gzip member

The cyclic redundancy check of RFC 1952: 32 bits, reflected, with all bits set before and after.
-/

namespace SiblingQuery

namespace Gzip

/-- The lowest bit shifted out of the remainder. -/
def crcShift (crc : UInt32) : UInt32 :=
  if crc &&& 1 = 1 then (crc >>> 1) ^^^ 0xEDB88320 else crc >>> 1

/-- Takes an octet into the remainder, eight shifts. -/
def crcOctet (crc : UInt32) (octet : UInt8) : UInt32 :=
  Nat.repeat crcShift 8 (crc ^^^ octet.toUInt32)

/-- The checksum of octets. -/
def crc32 (octets : List UInt8) : UInt32 := (octets.foldl crcOctet 0xFFFFFFFF) ^^^ 0xFFFFFFFF

end Gzip

end SiblingQuery
