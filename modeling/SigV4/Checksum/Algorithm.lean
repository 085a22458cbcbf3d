import SigV4.Digest.Crc
import SigV4.Digest.Sha1
import SigV4.Digest.Sha256
import SigV4.Text.Ascii
import SigV4.Text.Base64

/-!
Payload checksums.

A checksum is computed of a whole payload at once, or of one that comes in pieces; then it may
be asked for at any time, and does not depend on how the payload is cut. It is sent in Base64, a
check of thirty-two bits with its high octet first.
-/

namespace SigV4

namespace Checksum

/-- How a checksum is computed. -/
inductive Algorithm where
  | crc32
  | crc32c
  | sha1
  | sha256
  deriving DecidableEq, Repr

namespace Algorithm

/-- The name that is sent. -/
def name : Algorithm → String
  | crc32 => "CRC32"
  | crc32c => "CRC32C"
  | sha1 => "SHA1"
  | sha256 => "SHA256"

/-- The header that carries the checksum unless another one is asked for. -/
def headerName : Algorithm → String
  | crc32 => "x-amz-checksum-crc32"
  | crc32c => "x-amz-checksum-crc32c"
  | sha1 => "x-amz-checksum-sha1"
  | sha256 => "x-amz-checksum-sha256"

def all : List Algorithm := [crc32, crc32c, sha1, sha256]

/-- The algorithm of that name in any letter case. -/
def ofName? (s : String) : Option Algorithm := all.find? fun a => a.name = Ascii.upper s

/-- The checksum of a whole payload. -/
def digest (payload : Octets) : Algorithm → Octets
  | crc32 => Digest.Crc.check Digest.Crc.ieee payload
  | crc32c => Digest.Crc.check Digest.Crc.castagnoli payload
  | sha1 => Digest.Sha1.digest payload
  | sha256 => Digest.Sha256.digest payload

/-- The checksum of a whole payload, as it is sent. -/
def compute (a : Algorithm) (payload : Octets) : String := Base64.encode (a.digest payload)

end Algorithm

/-- A checksum in the making: the register of a check, the check so far, or a running hash. -/
inductive Hasher where
  | crc32 (register : UInt32)
  | crc32c (check : UInt32)
  | sha1 (running : Digest.Running Digest.Sha1.State)
  | sha256 (running : Digest.Running Digest.Sha256.State)

namespace Hasher

/-- A checksum of nothing yet. -/
def start : Algorithm → Hasher
  | .crc32 => crc32 Digest.Crc.start
  | .crc32c => crc32c 0
  | .sha1 => sha1 Digest.Sha1.hash.start
  | .sha256 => sha256 Digest.Sha256.hash.start

/-- Takes more of the payload. -/
def update (bs : Octets) : Hasher → Hasher
  | crc32 r => crc32 (Digest.Crc.update Digest.Crc.ieee r bs)
  | crc32c v => crc32c (Digest.Crc.append Digest.Crc.castagnoli v bs)
  | sha1 r => sha1 (Digest.Sha1.hash.update r bs)
  | sha256 r => sha256 (Digest.Sha256.hash.update r bs)

/-- The checksum of what was taken so far. -/
def octets : Hasher → Octets
  | crc32 r => Digest.Crc.result r
  | crc32c v => Digest.wordOctets v
  | sha1 r => Digest.Sha1.result r
  | sha256 r => Digest.Sha256.result r

/-- The checksum as it is sent. -/
def result (h : Hasher) : String := Base64.encode h.octets

theorem update_append (h : Hasher) (u v : Octets) :
    h.update (u ++ v) = (h.update u).update v := by
  cases h <;>
    simp [update, Digest.Crc.update_append, Digest.Crc.append_append,
      Digest.BlockHash.update_append]

@[simp] theorem update_nil (h : Hasher) : h.update [] = h := by
  cases h <;> simp [update]

theorem result_update_start (a : Algorithm) (payload : Octets) :
    ((start a).update payload).result = a.compute payload := by
  cases a with
  | crc32 => exact congrArg Base64.encode (Digest.Crc.result_update_start _ payload)
  | crc32c => exact congrArg Base64.encode (Digest.Crc.wordOctets_append_zero _ payload)
  | sha1 => exact congrArg Base64.encode (Digest.Sha1.result_update_start payload)
  | sha256 => exact congrArg Base64.encode (Digest.Sha256.result_update_start payload)

end Hasher

end Checksum

end SigV4
