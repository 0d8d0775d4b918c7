import Mathlib.Data.List.Basic
import SiblingQuery.Gzip.Member

/-!
# A gzip member gives back what it holds

`Gzip.compress` stores octets in blocks, and `Gzip.decompress?` inflates every member.  What is
proved for one stored block, with any octets after it (`block?_storeBlock`), carries over to a row
of blocks by induction on their number (`blocks?_storeBlocks`), and from there to compressed data
and to a whole member.

Inflating runs on fuel.  Every block takes at least one octet, so a row of blocks is never longer
than the data it stands in, and the fuel is enough (`lt_length_storeBlocks`).
-/

namespace SiblingQuery

namespace Gzip

variable {octets rest : List UInt8}

/-! ## One stored block -/

/-- A number below `2 ^ 16` is read back from its two octets. -/
lemma littleEndian_twoOctets {n : ℕ} (h : n ≤ 65535) :
    littleEndian n.toUInt8 (n / 256).toUInt8 = n := by
  have hlow : n.toUInt8.toNat = n % 256 := UInt8.toNat_ofNat'
  have hhigh : (n / 256).toUInt8.toNat = n / 256 % 256 := UInt8.toNat_ofNat'
  rw [littleEndian, hlow, hhigh]
  omega

/-- The length of a block and its complement lead to the octets of the block and to what follows
it. -/
lemma storedBlock_storeBlock (h : octets.length ≤ 65535) (last : UInt8) (rest : List UInt8)
    (out : Array UInt8) :
    storedBlock ⟨last :: (twoOctets octets.length ++ twoOctets (65535 - octets.length) ++ octets) ++
      rest, 3⟩ out = some (out ++ octets.toArray, Bits.ofOctets rest) := by
  have hlength := littleEndian_twoOctets h
  have hcomplement := littleEndian_twoOctets (Nat.sub_le 65535 octets.length)
  have hsum : 65535 - octets.length + octets.length = 65535 := by omega
  simp [storedBlock, Bits.align, twoOctets, hlength, hcomplement, hsum]

lemma block?_storeBlock (h : octets.length ≤ 65535) (last : Bool) (rest : List UInt8) (fuel : ℕ)
    (out : Array UInt8) :
    block? fuel (Bits.ofOctets (storeBlock last octets ++ rest)) out =
      some (last, out ++ octets.toArray, Bits.ofOctets rest) := by
  -- The first bit tells whether the block is the last, and the next two that it is stored.
  have hlast : (Bits.ofOctets (storeBlock last octets ++ rest)).next? =
      some (last, ⟨storeBlock last octets ++ rest, 1⟩) := by
    cases last <;> simp [Bits.next?, Bits.ofOctets, storeBlock]
  have hkind : Bits.number? 2 ⟨storeBlock last octets ++ rest, 1⟩ =
      some (0, ⟨storeBlock last octets ++ rest, 3⟩) := by
    cases last <;> simp [Bits.number?, Bits.next?, storeBlock, Nat.testBit_succ]
  have hstored : storedBlock ⟨storeBlock last octets ++ rest, 3⟩ out =
      some (out ++ octets.toArray, Bits.ofOctets rest) :=
    storedBlock_storeBlock h _ rest out
  simp [block?, hlast, hkind, hstored]

/-! ## A row of blocks -/

lemma length_storeBlock (last : Bool) (octets : List UInt8) :
    (storeBlock last octets).length = octets.length + 5 := by
  simp [storeBlock, twoOctets]

/-- Every block takes room. -/
lemma lt_length_storeBlocks (count : ℕ) (octets : List UInt8) :
    count < (storeBlocks count octets).length := by
  induction count generalizing octets with
  | zero =>
    rw [storeBlocks, length_storeBlock]
    omega
  | succ count ih =>
    have := ih (octets.drop 65535)
    rw [storeBlocks, List.length_append, length_storeBlock]
    omega

/-- Enough fuel for every block reads all of them, whatever follows. -/
lemma blocks?_storeBlocks (fuel : ℕ) {count steps : ℕ}
    (hcount : octets.length ≤ 65535 * (count + 1))
    (hsteps : count < steps) (rest : List UInt8) (out : Array UInt8) :
    blocks? fuel steps (Bits.ofOctets (storeBlocks count octets ++ rest)) out =
      some (out ++ octets.toArray, Bits.ofOctets rest) := by
  induction count generalizing octets steps out with
  | zero =>
    obtain ⟨steps, rfl⟩ := Nat.exists_eq_add_one_of_ne_zero (by omega : steps ≠ 0)
    rw [storeBlocks, blocks?, block?_storeBlock (by omega)]
  | succ count ih =>
    obtain ⟨steps, rfl⟩ := Nat.exists_eq_add_one_of_ne_zero (by omega : steps ≠ 0)
    have hfirst : (octets.take 65535).length ≤ 65535 := List.length_take_le 65535 octets
    have hrest : (octets.drop 65535).length ≤ 65535 * (count + 1) := by
      rw [List.length_drop]
      omega
    rw [storeBlocks, List.append_assoc, blocks?, block?_storeBlock hfirst]
    show blocks? fuel steps _ _ = _
    have hwhole : (octets.take 65535).toArray ++ (octets.drop 65535).toArray = octets.toArray := by
      rw [List.append_toArray, List.take_append_drop]
    rw [ih hrest (by omega), Array.append_assoc, hwhole]

/-! ## Data and members -/

/-- Stored data inflates to what was stored, and leaves what follows it. -/
theorem inflate?_deflateStored (octets rest : List UInt8) :
    inflate? (deflateStored octets ++ rest) = some (octets, rest) := by
  have hcount : octets.length ≤ 65535 * ((octets.length - 1) / 65535 + 1) := by omega
  have hroom := lt_length_storeBlocks ((octets.length - 1) / 65535) octets
  have hsteps : (octets.length - 1) / 65535 < 8 * (deflateStored octets ++ rest).length + 1 := by
    rw [List.length_append, deflateStored]
    omega
  have hblocks := blocks?_storeBlocks (8 * (deflateStored octets ++ rest).length + 1) hcount hsteps
    rest #[]
  rw [← deflateStored] at hblocks
  rw [inflate?, hblocks]
  simp [Bits.align, Bits.ofOctets]

/-- The header that is written has no optional fields. -/
lemma afterHeader?_header (rest : List UInt8) :
    afterHeader? ([0x1f, 0x8b, 8, 0, 0, 0, 0, 0, 0, 255] ++ rest) = some rest := by
  simp [afterHeader?, afterOptional?]

/-- A member gives back the octets it holds. -/
theorem decompress?_compress (octets : List UInt8) :
    decompress? (compress octets) = some octets := by
  have hheader : afterHeader? (compress octets) =
      some (deflateStored octets ++
        (lowestFirst 4 (crc32 octets).toNat ++ lowestFirst 4 octets.length)) := by
    rw [compress, List.append_assoc, List.append_assoc, afterHeader?_header]
  rw [decompress?, hheader, Option.bind_some, inflate?_deflateStored]
  simp

end Gzip

end SiblingQuery
