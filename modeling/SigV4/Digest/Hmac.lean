import SigV4.Digest.Sha256

/-!
Keyed hashing with SHA-256. A key longer than a block is hashed first, a shorter one is filled
up with zeros.
-/

namespace SigV4.Digest

/-- The key as one block. -/
def keyBlock (key : Octets) : Octets :=
  let k := if key.length ≤ 64 then key else Sha256.digest key
  k ++ List.replicate (64 - k.length) 0

/-- The authentication code of a message under a key. -/
def hmacSha256 (key message : Octets) : Octets :=
  let k := keyBlock key
  let inner := Sha256.digest (k.map (· ^^^ 0x36) ++ message)
  Sha256.digest (k.map (· ^^^ 0x5c) ++ inner)

end SigV4.Digest
