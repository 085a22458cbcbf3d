import SigV4.Canonical.Headers
import SigV4.Canonical.Path
import SigV4.Canonical.Query

/-!
The canonical form of a request, which its sender and its receiver both compute and hash.
-/

namespace SigV4

/-- The canonical form of a request, part by part. -/
structure CanonicalRequest where
  method : String
  path : String
  query : String
  /-- Names in order, each with its folded values. -/
  headers : List (String × String)
  payloadHash : String
  deriving DecidableEq, Repr

namespace CanonicalRequest

/-- The canonical form of a request, for a payload hash. All headers that are to be signed must
be there. -/
def ofRequest (c : Config) (r : Request) (payloadHash : String) :
    Except Error CanonicalRequest := do
  let path ← Canonical.path c r
  let headers ← Canonical.headers c r
  return { method := r.method.text, path, query := Canonical.query r.query, headers, payloadHash }

/-- The signed names, joined by semicolons. -/
def signedHeaders (c : CanonicalRequest) : String :=
  String.intercalate ";" (c.headers.map Prod.fst)

/-- The line of a header. -/
def line (h : String × String) : String := h.1 ++ ":" ++ h.2 ++ "\n"

/-- The text that is hashed: a line for the method, the path, the query and each header, an
empty line, a line of signed names, and the payload hash. -/
def text (c : CanonicalRequest) : String :=
  c.method ++ "\n" ++ c.path ++ "\n" ++ c.query ++ "\n" ++ String.join (c.headers.map line) ++
    "\n" ++ c.signedHeaders ++ "\n" ++ c.payloadHash

end CanonicalRequest

end SigV4
