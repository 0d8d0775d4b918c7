/-!
# Bits of compressed data

Compressed data is read bit by bit, each octet from its lowest bit on.  Numbers stand with their
lowest bit first.  A stored block begins at the next whole octet, which `Bits.align` goes to.
-/

namespace SiblingQuery

namespace Gzip

/-- Octets, of which the lowest bits of the first have already been read. -/
structure Bits where
  octets : List UInt8
  used : Nat
deriving Repr, Inhabited

namespace Bits

/-- All bits of some octets. -/
def ofOctets (octets : List UInt8) : Bits := ⟨octets, 0⟩

/-- The next bit. -/
def next? (bits : Bits) : Option (Bool × Bits) :=
  match bits.octets with
  | [] => none
  | octet :: rest =>
    let bit := octet.toNat.testBit bits.used
    if bits.used = 7 then some (bit, ⟨rest, 0⟩) else some (bit, ⟨octet :: rest, bits.used + 1⟩)

/-- The next bits as a number. -/
def number? : Nat → Bits → Option (Nat × Bits)
  | 0, bits => some (0, bits)
  | count + 1, bits =>
    match bits.next? with
    | none => none
    | some (bit, bits) =>
      (number? count bits).map fun (high, bits) => (2 * high + bit.toNat, bits)

/-- The octets from the next whole octet on. -/
def align (bits : Bits) : List UInt8 := if bits.used = 0 then bits.octets else bits.octets.drop 1

end Bits

end Gzip

end SiblingQuery
