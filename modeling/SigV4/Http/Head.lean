import SigV4.Http.Header
import SigV4.Http.Uri

/-!
The head of an HTTP request: what travels before its body.
-/

namespace SigV4.Http

/-- Method, target and headers of a request. -/
structure Head where
  method : Method
  uri : Uri
  headers : Headers
  deriving DecidableEq

end SigV4.Http
