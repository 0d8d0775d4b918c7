import SiblingQuery.Gzip.PrefixCode

/-!
# Inflating

`inflate?` undoes the DEFLATE compression of RFC 1951: blocks of stored octets, and blocks of
literals and repetitions under a fixed or a transmitted prefix code.  A repetition may reach back
32768 octets, but not beyond the first octet.

`deflateStored` is the plainest compressor whose output inflates to its input: it stores.
-/

namespace SiblingQuery

namespace Gzip

/-! ## Repetitions -/

/-- The base and the number of extra bits of each length symbol, from symbol 257 on. -/
def lengthTable : List (Nat × Nat) :=
  [(3, 0), (4, 0), (5, 0), (6, 0), (7, 0), (8, 0), (9, 0), (10, 0), (11, 1), (13, 1), (15, 1),
    (17, 1), (19, 2), (23, 2), (27, 2), (31, 2), (35, 3), (43, 3), (51, 3), (59, 3), (67, 4),
    (83, 4), (99, 4), (115, 4), (131, 5), (163, 5), (195, 5), (227, 5), (258, 0)]

/-- The base and the number of extra bits of each distance symbol. -/
def distanceTable : List (Nat × Nat) :=
  [(1, 0), (2, 0), (3, 0), (4, 0), (5, 1), (7, 1), (9, 2), (13, 2), (17, 3), (25, 3), (33, 4),
    (49, 4), (65, 5), (97, 5), (129, 6), (193, 6), (257, 7), (385, 7), (513, 8), (769, 8),
    (1025, 9), (1537, 9), (2049, 10), (3073, 10), (4097, 11), (6145, 11), (8193, 12),
    (12289, 12), (16385, 13), (24577, 13)]

/-- The number that a symbol of a table and its extra bits give. -/
def extended? (table : List (Nat × Nat)) (symbol : Nat) (bits : Bits) : Option (Nat × Bits) :=
  match table[symbol]? with
  | none => none
  | some (base, extra) => (bits.number? extra).map fun (n, bits) => (base + n, bits)

/-- Repeats what stands `distance` octets back; `none` when that is before the first octet. -/
def repeatBack? (distance : Nat) : Nat → Array UInt8 → Option (Array UInt8)
  | 0, out => some out
  | count + 1, out =>
    if distance ≤ out.size then
      match out[out.size - distance]? with
      | some octet => repeatBack? distance count (out.push octet)
      | none => none
    else none

/-! ## Blocks -/

/-- Literals and repetitions up to the end of the block. -/
def codedBlock (literals distances : PrefixCode) :
    Nat → Bits → Array UInt8 → Option (Array UInt8 × Bits)
  | 0, _, _ => none
  | fuel + 1, bits, out =>
    match literals.symbol? bits with
    | none => none
    | some (symbol, bits) =>
      if symbol < 256 then codedBlock literals distances fuel bits (out.push symbol.toUInt8)
      else if symbol = 256 then some (out, bits)
      else
        match extended? lengthTable (symbol - 257) bits with
        | none => none
        | some (length, bits) =>
          match distances.symbol? bits with
          | none => none
          | some (symbol, bits) =>
            match extended? distanceTable symbol bits with
            | none => none
            | some (distance, bits) =>
              match repeatBack? distance length out with
              | none => none
              | some out => codedBlock literals distances fuel bits out

/-- A number of two octets, the lower first. -/
def littleEndian (low high : UInt8) : Nat := low.toNat + 256 * high.toNat

/-- A stored block: its length, the same with every bit turned, and its octets. -/
def storedBlock (bits : Bits) (out : Array UInt8) : Option (Array UInt8 × Bits) :=
  match bits.align with
  | a :: b :: c :: d :: rest =>
    let length := littleEndian a b
    if littleEndian c d + length = 65535 ∧ length ≤ rest.length then
      some (out ++ (rest.take length).toArray, Bits.ofOctets (rest.drop length))
    else none
  | _ => none

/-- The fixed code of literals and lengths. -/
def fixedLiterals : PrefixCode :=
  PrefixCode.ofLengths (List.replicate 144 8 ++ List.replicate 112 9 ++ List.replicate 24 7 ++
    List.replicate 8 8)

/-- The fixed code of distances. -/
def fixedDistances : PrefixCode := PrefixCode.ofLengths (List.replicate 32 5)

/-! ## Transmitted codes -/

/-- The order in which the lengths of the code for lengths are transmitted. -/
def lengthOrder : List Nat := [16, 17, 18, 0, 8, 7, 9, 6, 10, 5, 11, 4, 12, 3, 13, 2, 14, 1, 15]

/-- Numbers of three bits. -/
def triples? : Nat → Bits → Option (List Nat × Bits)
  | 0, bits => some ([], bits)
  | count + 1, bits =>
    match bits.number? 3 with
    | none => none
    | some (n, bits) => (triples? count bits).map fun (rest, bits) => (n :: rest, bits)

/-- Word lengths, the last first, up to `total` of them.  Three symbols stand for repetitions: of
the length before, and of zero. -/
def wordLengths? (code : PrefixCode) (total : Nat) :
    Nat → List Nat → Bits → Option (List Nat × Bits)
  | 0, _, _ => none
  | fuel + 1, lengths, bits =>
    if total ≤ lengths.length then
      if lengths.length = total then some (lengths, bits) else none
    else
      match code.symbol? bits with
      | none => none
      | some (symbol, bits) =>
        if symbol < 16 then wordLengths? code total fuel (symbol :: lengths) bits
        else
          let repeated :=
            if symbol = 16 then
              match lengths with
              | [] => none
              | last :: _ => (bits.number? 2).map fun (n, bits) => (last, 3 + n, bits)
            else if symbol = 17 then (bits.number? 3).map fun (n, bits) => (0, 3 + n, bits)
            else (bits.number? 7).map fun (n, bits) => (0, 11 + n, bits)
          match repeated with
          | none => none
          | some (length, count, bits) =>
            wordLengths? code total fuel (List.replicate count length ++ lengths) bits

/-- A code that may be used for literals or distances: complete, without words, or of a single
word of one bit. -/
def usable? (lengths : List Nat) : Option PrefixCode :=
  let code := PrefixCode.ofLengths lengths
  if code.isComplete || code.size = 0 || (code.size = 1 && code.counts.head? = some 1) then
    some code
  else none

/-- The codes that a block transmits. -/
def transmittedCodes? (bits : Bits) : Option (PrefixCode × PrefixCode × Bits) := do
  let (literalCount, bits) ← bits.number? 5
  let (distanceCount, bits) ← bits.number? 5
  let (lengthCount, bits) ← bits.number? 4
  let literalCount := literalCount + 257
  let distanceCount := distanceCount + 1
  if 286 < literalCount ∨ 30 < distanceCount then none
  else
    let (triples, bits) ← triples? (lengthCount + 4) bits
    let sent := lengthOrder.zip triples
    let code := PrefixCode.ofLengths ((List.range 19).map fun symbol =>
      ((sent.find? (·.1 = symbol)).map Prod.snd).getD 0)
    if !code.isComplete then none
    else
      let total := literalCount + distanceCount
      let (reversed, bits) ← wordLengths? code total (total + 1) [] bits
      let lengths := reversed.reverse
      let literals ← usable? (lengths.take literalCount)
      let distances ← usable? (lengths.drop literalCount)
      return (literals, distances, bits)

/-! ## Data -/

/-- One block, and whether it is the last. -/
def block? (fuel : Nat) (bits : Bits) (out : Array UInt8) :
    Option (Bool × Array UInt8 × Bits) := do
  let (last, bits) ← bits.next?
  let (kind, bits) ← bits.number? 2
  let (out, bits) ←
    if kind = 0 then storedBlock bits out
    else if kind = 1 then codedBlock fixedLiterals fixedDistances fuel bits out
    else if kind = 2 then
      match transmittedCodes? bits with
      | some (literals, distances, bits) => codedBlock literals distances fuel bits out
      | none => none
    else none
  return (last, out, bits)

/-- Blocks up to the last, at most `count` of them. -/
def blocks? (fuel : Nat) : Nat → Bits → Array UInt8 → Option (Array UInt8 × Bits)
  | 0, _, _ => none
  | count + 1, bits, out =>
    match block? fuel bits out with
    | none => none
    | some (true, out, bits) => some (out, bits)
    | some (false, out, bits) => blocks? fuel count bits out

/-- Inflates compressed data, and gives the octets after its last block. -/
def inflate? (octets : List UInt8) : Option (List UInt8 × List UInt8) :=
  let fuel := 8 * octets.length + 1
  (blocks? fuel fuel (Bits.ofOctets octets) #[]).map fun (out, bits) => (out.toList, bits.align)

/-! ## Storing -/

/-- A number as two octets, the lower first. -/
def twoOctets (n : Nat) : List UInt8 := [n.toUInt8, (n / 256).toUInt8]

/-- A stored block. -/
def storeBlock (last : Bool) (octets : List UInt8) : List UInt8 :=
  (if last then 1 else 0) ::
    (twoOctets octets.length ++ twoOctets (65535 - octets.length) ++ octets)

/-- Stores octets in blocks of at most 65535, of which there are `count` before the last. -/
def storeBlocks : Nat → List UInt8 → List UInt8
  | 0, octets => storeBlock true octets
  | count + 1, octets =>
    storeBlock false (octets.take 65535) ++ storeBlocks count (octets.drop 65535)

/-- Compressed data that stores some octets. -/
def deflateStored (octets : List UInt8) : List UInt8 :=
  storeBlocks ((octets.length - 1) / 65535) octets

end Gzip

end SiblingQuery
