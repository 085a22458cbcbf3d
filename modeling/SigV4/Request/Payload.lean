import SigV4.Text.Octets

/-!
The payload of a request, as far as signing knows it.
-/

namespace SigV4

/-- What is known of a payload. -/
inductive Payload where
  /-- All of it. -/
  | memory (octets : Octets)
  /-- It is not to be signed. -/
  | unsigned
  /-- It is sent later; perhaps its length is known. -/
  | streaming (length : Option UInt64)
  deriving DecidableEq

namespace Payload

/-- The payload itself, if all of it is known. -/
def octets? : Payload → Option Octets
  | memory bs => some bs
  | _ => none

/-- The number of octets, if it is known. -/
def length? : Payload → Option Nat
  | memory bs => some bs.length
  | unsigned => none
  | streaming n => n.map UInt64.toNat

def isStreaming : Payload → Bool
  | streaming _ => true
  | _ => false

end Payload

end SigV4
