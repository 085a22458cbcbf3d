import SigV4.Identity.Redaction
import SigV4.Time.Stamp

/-!
Credentials, and the identity a request is sent under.
-/

namespace SigV4

/-- A key pair, possibly a temporary one that comes with a token and an end. -/
structure Credential where
  accessKeyId : String
  secretAccessKey : String
  sessionToken : Option String
  expiresAt : Option Instant
  deriving DecidableEq

namespace Credential

/-- A key pair that does not expire. -/
def ofKeys (accessKeyId secretAccessKey : String) : Credential :=
  ⟨accessKeyId, secretAccessKey, none, none⟩

def withSessionToken (c : Credential) (token : String) : Credential :=
  { c with sessionToken := some token }

def withExpiry (c : Credential) (t : Instant) : Credential := { c with expiresAt := some t }

/-- Both keys are there. -/
def hasKeys (c : Credential) : Bool := c.accessKeyId ≠ "" && c.secretAccessKey ≠ ""

/-- How long before its end a key pair is no longer used, in seconds. -/
def expiryMargin : Int := 120

/-- The key pair can sign a request now. -/
def isUsable (c : Credential) (now : Instant) : Bool :=
  c.hasKeys && match c.expiresAt with
    | some t => t.isAfter now expiryMargin
    | none => true

/-- What is shown of a key pair, with its secrets redacted. -/
def shown? (c : Credential) : Option String := do
  let id ← Redaction.redact? c.accessKeyId
  let secret ← Redaction.redact? c.secretAccessKey
  let token ← Redaction.redact? (c.sessionToken.getD "")
  let expiry := match c.expiresAt with
    | some t => "Some(" ++ t.extended ++ ")"
    | none => "None"
  return "Credential \x7b access_key_id: " ++ id ++ ", secret_access_key: " ++ secret ++
    ", session_token: " ++ token ++ ", expires_in: " ++ expiry ++ " \x7d"

end Credential

/-- Whom a request is signed for. An anonymous request is sent as it is. -/
inductive Identity where
  | anonymous
  | keyed (credential : Credential)
  deriving DecidableEq

namespace Identity

def isAnonymous : Identity → Bool
  | anonymous => true
  | keyed _ => false

/-- The identity can be used now. -/
def isUsable (now : Instant) : Identity → Bool
  | anonymous => true
  | keyed c => c.isUsable now

/-- What is shown of an identity. -/
def shown? : Identity → Option String
  | anonymous => some "Anonymous"
  | keyed c => c.shown?.map fun s => "Keyed(" ++ s ++ ")"

end Identity

end SigV4
