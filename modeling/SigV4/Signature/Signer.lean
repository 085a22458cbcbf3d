import SigV4.Canonical.Request
import SigV4.Identity.Credential
import SigV4.Signature.Integrity
import SigV4.Signature.Scope

/-!
Signing a request.

The signer works on a copy of the request: it drops what an earlier signature left, adds the
headers that are to be signed, takes the canonical form, and attaches the signature. A session
token that is not signed is attached after it.
-/

namespace SigV4

open Http (HeaderName HeaderValue Headers)

/-- What comes up while a signature is made. -/
structure SigningOutput where
  canonicalRequest : String
  stringToSign : String
  scope : String
  signedHeaders : String
  signature : String
  deriving DecidableEq, Repr

namespace Signer

/-- The name of the signing method. -/
def algorithm : String := "AWS4-HMAC-SHA256"

/-- What is signed: the method, the time, the scope and the hash of the canonical form. -/
def stringToSign (now : Instant) (scope : Scope) (canonical : String) : String :=
  algorithm ++ "\n" ++ now.stamp ++ "\n" ++ scope.text ++ "\n" ++
    Hex.encode (Digest.Sha256.digest (utf8 canonical))

/-- What is sent: who signed, which headers, and the signature. -/
def authorization (accessKeyId : String) (scope : Scope) (signedHeaders signature : String) :
    String :=
  algorithm ++ " Credential=" ++ accessKeyId ++ "/" ++ scope.text ++ ", SignedHeaders=" ++
    signedHeaders ++ ", Signature=" ++ signature

/-- The host header that an authority stands for. The user is not sent. -/
def hostText (a : Http.Authority) : String :=
  match a.port? with
  | some port => a.host ++ ":" ++ toString port
  | none => a.host

/-- Adds a host header, unless the request has one. -/
def addHost (r : Request) : Except Error Request :=
  if r.headers.contains .host then return r
  else
    match r.authority with
    | some a => r.putText .host (hostText a)
    | none => .error .hostMissing

/-- Puts a value that is not to be shown in place of those the name has. -/
def putHidden (r : Request) (n : HeaderName) (value : String) : Except Error Request := do
  let v ← Request.writeValue value
  return { r with headers := r.headers.insert n v.hide }

/-- Adds host, date and a session token that is to be signed. -/
def addSigned (c : Config) (credential : Credential) (now : Instant) (r : Request) :
    Except Error Request := do
  let r ← addHost r
  let r ← r.putText .date now.stamp
  match c.signSecurityToken, credential.sessionToken with
  | true, some token => putHidden r .securityToken token
  | _, _ => return r

/-- Attaches a session token that is not signed: the one of the credential, or else the one the
request came with. -/
def attachToken (credential : Credential) (earlier : Option HeaderValue) (r : Request) :
    Except Error Request :=
  match credential.sessionToken, earlier with
  | some token, _ => putHidden r .securityToken token
  | none, some v => return { r with headers := r.headers.insert .securityToken v.hide }
  | none, none => return r

/-- The request without what an earlier signature left. -/
def strip (c : Config) (r : Request) : Request :=
  let headers := r.headers.erase .authorization
  { r with headers := if c.signSecurityToken then headers else headers.erase .securityToken }

/-- Does what a directive asks for, if there is one. -/
def integrate (directive : Option Checksum.Directive) (r : Request) : Signing Request :=
  match directive with
  | some d => Integrity.integrate d r
  | none => return r

/-- The directive sends the checksum after the body. -/
def hasTrailer (directive : Option Checksum.Directive) : Bool :=
  directive.any fun d => d.placement = .trailer

/-- The request with all that is to be signed, and its payload hash. -/
def prepare (c : Config) (r : Request) (credential : Credential)
    (directive : Option Checksum.Directive) (now : Instant) : Signing (Request × String) := do
  let r ← integrate directive (strip c r)
  let (r, hash) ← (Integrity.resolveHash c (hasTrailer directive) r : Except Error _)
  let r ← (addSigned c credential now r : Except Error Request)
  return (r, hash)

/-- The prepared request with its signature, and what is sent without being signed. -/
def attach (c : Config) (credential : Credential) (earlier : Option HeaderValue)
    (authorization : String) (r : Request) : Except Error Request := do
  let r ← putHidden r .authorization authorization
  if c.signSecurityToken then return r else attachToken credential earlier r

/-- Signs a request with a key pair, as of an instant. -/
def calculate (c : Config) (r : Request) (credential : Credential)
    (directive : Option Checksum.Directive) (now : Instant) :
    Signing (Request × SigningOutput) := do
  (c.validate : Except Error Unit)
  if !credential.hasKeys then throw .keysMissing
  let scope ← (Scope.of now c.region c.service : Except Error Scope)
  debug ("calculated scope: " ++ scope.text)
  let (prepared, hash) ← prepare c r credential directive now
  let canonical ← (CanonicalRequest.ofRequest c prepared hash : Except Error CanonicalRequest)
  debug ("calculated canonical request: " ++ canonical.text)
  let text := stringToSign now scope canonical.text
  debug ("calculated string to sign: " ++ text)
  let signature := (SigningKey.derive credential.secretAccessKey scope).sign text
  let output : SigningOutput :=
    { canonicalRequest := canonical.text
      stringToSign := text
      scope := scope.text
      signedHeaders := canonical.signedHeaders
      signature }
  let earlier := if c.signSecurityToken then none else r.headers.get? .securityToken
  let sent := authorization credential.accessKeyId scope canonical.signedHeaders signature
  let signed ← (attach c credential earlier sent prepared : Except Error Request)
  return (signed, output)

/-- Signs a request for an identity; for an anonymous one it stays as it is. -/
def sign (c : Config) (now : Instant) (r : Request) (identity : Identity)
    (directive : Option Checksum.Directive) : Signing Request :=
  match identity with
  | .anonymous => do
    debug "identity is anonymous, skip signing"
    return r
  | .keyed credential => do
    let (signed, _) ← calculate c r credential directive now
    return signed

end Signer

end SigV4
