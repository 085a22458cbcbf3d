import SigV4.Identity.Provider
import SigV4.Signature.Signer

/-!
Signing the head of a message.

An identity is resolved and found usable, the head is taken apart, the request is signed and
put back. The steps work on the head in place, whatever signs the request; the head shows what
they did also when they fail.
-/

namespace SigV4

open Http (Head)

/-- A computation that works on a head, writes records and may fail. -/
abbrev HeadSigning := ExceptT Error (StateT Head Logged)

/-- How requests are signed for identities of some kind: where an identity comes from, whether
it can be used, and what it does to a request. -/
structure HeadSigner (ι : Type) where
  resolve : Signing ι
  isUsable : ι → Bool
  sign : Request → ι → Option Checksum.Directive → Signing Request

namespace HeadSigner

/-- A computation that has no use for the head. -/
def lift {α : Type} (x : Signing α) : HeadSigning α := fun head => do
  let a ← x.run
  return (a, head)

/-- A computation that has no use for the log. -/
def onHead {α : Type} (x : ExceptT Error (StateM Head) α) : HeadSigning α :=
  fun head => return x.run head

/-- Signs the head of a message with that payload. -/
def run {ι : Type} (s : HeadSigner ι) (payload : Payload)
    (directive : Option Checksum.Directive) : HeadSigning Unit := do
  let identity ← lift s.resolve
  if !s.isUsable identity then throw .identityUnusable
  let request := Request.ofHead (← get) payload
  let signed ← lift (s.sign request identity directive)
  lift (debug ("signed request: " ++ signed.method.text ++ " " ++ signed.path))
  onHead signed.apply

/-- The signer of this library: usability is judged at one instant and the signature made at
another, since a caller may set the time of signing. -/
def standard (provider : Provider) (c : Config) (wall signing : Instant) : HeadSigner Identity where
  resolve := provider.resolve
  isUsable := Identity.isUsable wall
  sign := Signer.sign c signing

end HeadSigner

end SigV4
