import SigV4.Error
import SigV4.Http.Head
import SigV4.Http.Uri.Reader
import SigV4.Request.Payload
import SigV4.Request.Query

/-!
Requests as they are signed.

The head of a message is taken apart into a request, which is signed and then put back. The
target of the head is only written anew if the path or the query pairs are no longer the same,
so that what is sent keeps the encoding its sender chose.
-/

namespace SigV4

open Http (Method Scheme Authority PathAndQuery Headers HeaderName HeaderValue Head Uri)

/-- A request with its target taken apart. Query pairs are decoded and keep their order; the
path is as it is sent. -/
structure Request where
  method : Method
  scheme : Scheme
  authority : Option Authority
  path : String
  query : List QueryPair
  headers : Headers
  payload : Payload
  deriving DecidableEq

namespace Request

/-- The request of a head. A target without a path has the path `/`, and one without a scheme
is taken for plain HTTP. -/
def ofHead (head : Head) (payload : Payload) : Request :=
  let target := head.uri.target?.getD ⟨"/", none⟩
  { method := head.method
    scheme := head.uri.scheme?.getD .http
    authority := head.uri.authority?
    path := target.pathOrSlash
    query := Query.parse (target.query.getD "")
    headers := head.headers
    payload }

/-- The request to a target, without headers and payload. -/
def ofTarget (method : Method) (target : String) : Except Error Request := do
  let uri ← (Uri.parse (utf8 target)).mapError .uriMalformed
  return ofHead ⟨method, uri, Headers.empty⟩ .unsigned

/-- The target in its written form, with all query pairs in order. -/
def uri (r : Request) : Except Error Uri := do
  let path := if r.path = "" then "/" else r.path
  let target ← (PathAndQuery.parse (utf8 (path ++ Query.render r.query))).mapError .uriMalformed
  let scheme := r.authority.map fun _ => r.scheme
  (Uri.ofParts scheme r.authority (some target)).mapError .uriMalformed

/-- The path with its escapes read. -/
def decodedPath (r : Request) : Except Error String :=
  (Utf8.decode (Percent.decode (utf8 r.path))).mapError .notUtf8

def withPayload (r : Request) (payload : Payload) : Request := { r with payload }

def pushQuery (r : Request) (name : String) (value : Option String) : Request :=
  { r with query := r.query ++ [(name, value)] }

/-- The header name of a text. -/
def readName (name : String) : Except Error HeaderName :=
  match HeaderName.ofText? name with
  | some n => .ok n
  | none => .error .headerNameMalformed

/-- The header value of a text. -/
def writeValue (value : String) : Except Error HeaderValue :=
  match HeaderValue.ofText? value with
  | some v => .ok v
  | none => .error .headerValueMalformed

/-- The text of a header value. -/
def readValue (v : HeaderValue) : Except Error String :=
  match v.text? with
  | some s => .ok s
  | none => .error .headerValueUnreadable

/-- Adds a value after those the name has. -/
def addText (r : Request) (n : HeaderName) (value : String) : Except Error Request := do
  let v ← writeValue value
  return { r with headers := r.headers.append n v }

/-- Puts a value in place of those the name has. -/
def putText (r : Request) (n : HeaderName) (value : String) : Except Error Request := do
  let v ← writeValue value
  return { r with headers := r.headers.insert n v }

/-- The first value under a name, as text. -/
def getText (r : Request) (n : HeaderName) : Except Error (Option String) :=
  match r.headers.get? n with
  | none => .ok none
  | some v => (readValue v).map some

/-- Adds a header given as text. -/
def appendHeader (r : Request) (name value : String) : Except Error Request := do
  r.addText (← readName name) value

/-- Puts a header given as text in place of those of its name. -/
def insertHeader (r : Request) (name value : String) : Except Error Request := do
  r.putText (← readName name) value

/-- There is a value under the name, which may be no header name at all. -/
def hasHeader (r : Request) (name : String) : Bool :=
  match HeaderName.ofText? name with
  | some n => r.headers.contains n
  | none => false

/-- The first value under a name given as text. -/
def header? (r : Request) (name : String) : Except Error (Option String) :=
  match HeaderName.ofText? name with
  | some n => r.getText n
  | none => .ok none

/-- The target of the head says something else than the request. -/
def targetDiffers (r : Request) (head : Head) : Bool :=
  r.path != head.uri.path || r.query != Query.parse (head.uri.query?.getD "")

/-- Puts the request back into a head, step by step; a failure leaves the head as the steps
before it made it. -/
def apply (r : Request) : ExceptT Error (StateM Head) Unit := do
  if r.targetDiffers (← get) then
    let uri ← (r.uri : Except Error Uri)
    modify fun head => { head with uri }
  modify fun head => { head with method := r.method }
  modify fun head => { head with headers := r.headers }

end Request

end SigV4
