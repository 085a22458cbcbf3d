import SigV4.Environment
import SigV4.Log
import SigV4.Text.Ascii

/-!
How requests are signed.

A configuration names the service and the region of the scope, the headers that are left out
of the signature, and the rules of the canonical form. The object store has rules of its own:
its paths are encoded once and taken as they are, and the payload hash is always sent.
-/

namespace SigV4

/-- How the path of the canonical form comes from the transmitted one. -/
inductive PathEncoding where
  /-- It is encoded once more, so `%20` becomes `%2520`. -/
  | double
  /-- It is decoded and encoded again, so `%20` stays `%20`. -/
  | single
  deriving DecidableEq, Repr

/-- How requests are signed. -/
structure Config where
  service : String
  region : String
  /-- The names of headers that are never signed, in lower case. -/
  excluded : List String
  pathEncoding : PathEncoding
  /-- Dot segments and empty segments are removed from the canonical path. -/
  normalizePath : Bool
  /-- The payload hash is always sent and signed. -/
  contentHashHeader : Bool
  /-- The session token is signed, not only sent. -/
  signSecurityToken : Bool
  deriving DecidableEq, Repr

namespace Config

/-- Headers that proxies change, or that cannot sign themselves. -/
def defaultExcluded : List String :=
  ["authorization", "connection", "expect", "user-agent", "x-amzn-trace-id"]

/-- The rules of a service, in a region. -/
def forService (service region : String) : Config :=
  let objectStore := service = "s3"
  { service, region
    excluded := defaultExcluded
    pathEncoding := if objectStore then .single else .double
    normalizePath := !objectStore
    contentHashHeader := objectStore
    signSecurityToken := false }

def withRegion (c : Config) (region : String) : Config := { c with region }

/-- Leaves out these headers and no others. -/
def withExcluded (c : Config) (names : List String) : Config :=
  { c with excluded := names.map Ascii.lower }

/-- Leaves out one more header. -/
def exclude (c : Config) (name : String) : Config :=
  { c with excluded := c.excluded ++ [Ascii.lower name] }

def withPathEncoding (c : Config) (mode : PathEncoding) : Config := { c with pathEncoding := mode }

def withNormalizePath (c : Config) (on : Bool) : Config := { c with normalizePath := on }

def withContentHashHeader (c : Config) (on : Bool) : Config := { c with contentHashHeader := on }

def withSignSecurityToken (c : Config) (on : Bool) : Config := { c with signSecurityToken := on }

/-- The header of that name, in lower case, is left out. -/
def isExcluded (c : Config) (name : String) : Bool := c.excluded.contains name

/-- The names that are left out, each once and in ascending order. -/
def excludedNames (c : Config) : List String :=
  c.excluded.eraseDups.mergeSort fun a b => a ≤ b

/-- Takes a region that is missing from the environment, the particular variable first. -/
def fromEnvironment (c : Config) (env : Environment) : Logged Config :=
  if c.region = "" then
    match (env.var? Environment.region).or (env.var? Environment.defaultRegion) with
    | some region => do
      debug ("load region from env: " ++ region)
      return c.withRegion region
    | none => return c
  else return c

/-- The configuration names what a scope needs. -/
def validate (c : Config) : Except Error Unit :=
  if c.service = "" then .error .serviceMissing
  else if c.region = "" then .error .regionMissing
  else .ok ()

end Config

end SigV4
