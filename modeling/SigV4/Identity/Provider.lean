import SigV4.Environment
import SigV4.Identity.Credential
import SigV4.Log

/-!
Where identities come from.
-/

namespace SigV4

/-- A source of identities. -/
inductive Provider where
  /-- Always the same identity. -/
  | fixed (identity : Identity)
  /-- The key pair in the environment. -/
  | environment (env : Environment)

namespace Provider

/-- Adds a token to a fixed key pair; no other provider has a use for it. -/
def withSessionToken (token : String) : Provider → Provider
  | fixed (.keyed c) => fixed (.keyed (c.withSessionToken token))
  | p => p

/-- The value of a variable, if it is not empty. -/
def nonemptyVar? (env : Environment) (name : String) : Option String :=
  (env.var? name).filter (· ≠ "")

/-- The identity. Without both keys in the environment it is anonymous. -/
def resolve : Provider → Logged Identity
  | fixed identity => return identity
  | environment env =>
    match nonemptyVar? env Environment.accessKeyId,
      nonemptyVar? env Environment.secretAccessKey with
    | some id, some secret =>
      return .keyed
        { Credential.ofKeys id secret with
          sessionToken := nonemptyVar? env Environment.sessionToken }
    | _, _ => do
      debug "aws access keys not found in env, use anonymous identity"
      return .anonymous

end Provider

end SigV4
