import SigV4.Checksum.Directive
import SigV4.Config
import SigV4.Request.Basic
import SigV4.Text.Hex

/-!
Headers that tie the payload to the signature: a checksum or the announcement of one, and the
hash of the payload. They are added before the canonical form is taken, so that they are
signed.
-/

namespace SigV4.Integrity

open Http (HeaderName HeaderValue)
open Checksum (Directive Placement)

/-- The checksum that goes into a header: the one given, or else the one of the payload. -/
def headerChecksum (d : Directive) (payload : Payload) : Except Error String :=
  match d.value, payload.octets? with
  | some value, _ => .ok value
  | none, some bs => .ok (d.algorithm.compute bs)
  | none, none => .error (.payloadNotInMemory d.algorithm d.headerName)

/-- Adds a checksum header, unless the request has one. -/
def addHeader (d : Directive) (r : Request) : Signing Request :=
  if r.hasHeader d.headerName then do
    debug ("checksum header " ++ d.headerName ++ " already present, keep it")
    return r
  else do
    let value ← (headerChecksum d r.payload : Except Error String)
    debug ("add checksum header " ++ d.headerName ++ ": " ++ value)
    (r.insertHeader d.headerName value : Except Error Request)

/-- The text without blanks around it. -/
def trim (cs : List Char) : List Char :=
  ((cs.dropWhile Ascii.isBlank).reverse.dropWhile Ascii.isBlank).reverse

/-- One of the names in a list separated by commas is that one, in some letter case. -/
def announces (name value : String) : Bool :=
  (value.toList.splitOn ',').any fun part => Ascii.sameLetters (String.ofList (trim part)) name

/-- One of the values announces that name; reading stops at the first that does. -/
def isAnnounced (name : String) : List HeaderValue → Except Error Bool
  | [] => .ok false
  | v :: vs => do
    let value ← Request.readValue v
    if announces name value then return true else isAnnounced name vs

/-- Announces a checksum that follows the body, unless the request does so. -/
def announceTrailer (d : Directive) (r : Request) : Signing Request := do
  if ← (isAnnounced d.headerName (r.headers.values .trailer) : Except Error Bool) then
    debug ("trailer " ++ d.headerName ++ " already declared")
    return r
  else
    debug ("declare checksum trailer " ++ d.headerName)
    (r.addText .trailer d.headerName : Except Error Request)

/-- Does what a directive asks for. -/
def integrate (d : Directive) (r : Request) : Signing Request :=
  match d.placement with
  | .header => addHeader d r
  | .trailer => announceTrailer d r

/-- Stands for the hash of a payload that is not signed. -/
def unsignedPayload : String := "UNSIGNED-PAYLOAD"

/-- Stands for the hash of a payload whose checksum follows it. -/
def trailingPayload : String := "STREAMING-UNSIGNED-PAYLOAD-TRAILER"

/-- Asks for the payload hash to be filled in. -/
def placeholder : String := "required"

/-- The hash of a payload, or what stands for it. -/
def payloadHash (hasTrailer : Bool) : Payload → String
  | .memory bs => Hex.encode (Digest.Sha256.digest bs)
  | .streaming _ => if hasTrailer then trailingPayload else unsignedPayload
  | .unsigned => unsignedPayload

/-- The payload hash to be signed, and the request that announces it. A hash the request
already announces is taken as it is, unless it is the placeholder. -/
def resolveHash (c : Config) (hasTrailer : Bool) (r : Request) :
    Except Error (Request × String) := do
  let existing ← r.getText .contentHash
  match existing.filter fun v => !Ascii.sameLetters v placeholder with
  | some hash => return (r, hash)
  | none =>
    let hash := payloadHash hasTrailer r.payload
    if existing.isSome || c.contentHashHeader then
      let r ← r.putText .contentHash hash
      return (r, hash)
    else return (r, hash)

end SigV4.Integrity
