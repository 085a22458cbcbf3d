import SigV4.Digest.Hmac
import SigV4.Error
import SigV4.Text.Hex
import SigV4.Time.Stamp

/-!
Where and when a signature is valid, and the key it is made with.

A signing key is derived from the secret step by step along the scope, so it is of no use
outside of it and does not reveal the secret.
-/

namespace SigV4

/-- The last part of every scope. -/
def Scope.terminator : String := "aws4_request"

/-- A date, a region and a service. -/
structure Scope where
  date : String
  region : String
  service : String
  deriving DecidableEq, Repr

namespace Scope

/-- The scope of a signature made at an instant. -/
def of (t : Instant) (region service : String) : Except Error Scope :=
  if region = "" then .error .regionMissing
  else if service = "" then .error .serviceMissing
  else .ok ⟨t.dateStamp, region, service⟩

/-- The written form of a scope. -/
def text (s : Scope) : String :=
  s.date ++ "/" ++ s.region ++ "/" ++ s.service ++ "/" ++ terminator

end Scope

/-- The key of a scope. -/
structure SigningKey where
  octets : Octets

namespace SigningKey

/-- The key of a secret in a scope. -/
def derive (secret : String) (s : Scope) : SigningKey :=
  let parts := [s.date, s.region, s.service, Scope.terminator]
  ⟨parts.foldl (fun key part => Digest.hmacSha256 key (utf8 part)) (utf8 ("AWS4" ++ secret))⟩

/-- The signature of a text. -/
def sign (k : SigningKey) (text : String) : String :=
  Hex.encode (Digest.hmacSha256 k.octets (utf8 text))

/-- What is shown of a key, whichever it is. -/
def shown (_ : SigningKey) : String := "SigningKey(***)"

end SigningKey

end SigV4
