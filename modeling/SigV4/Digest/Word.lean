import SigV4.Text.Octets

/-!
Words of thirty-two bits, and the octets they are read from and written as, high octet first.
-/

namespace SigV4.Digest

/-- The four octets of a word. -/
def wordOctets (w : UInt32) : Octets :=
  [(w >>> 24).toUInt8, (w >>> 16).toUInt8, (w >>> 8).toUInt8, w.toUInt8]

/-- The word number `i` of a block; octets beyond the block count as zero. -/
def wordAt (block : Array UInt8) (i : Nat) : UInt32 :=
  ((block.getD (4 * i) 0).toUInt32 <<< 24) ||| ((block.getD (4 * i + 1) 0).toUInt32 <<< 16) |||
    ((block.getD (4 * i + 2) 0).toUInt32 <<< 8) ||| (block.getD (4 * i + 3) 0).toUInt32

def rotateLeft (w : UInt32) (n : UInt32) : UInt32 := (w <<< n) ||| (w >>> (32 - n))

def rotateRight (w : UInt32) (n : UInt32) : UInt32 := (w >>> n) ||| (w <<< (32 - n))

/-- The eight octets of a number below 2^64, high octet first. -/
def lengthOctets (n : Nat) : Octets :=
  (List.range 8).reverse.map fun i => UInt8.ofNat (n >>> (8 * i))

end SigV4.Digest
