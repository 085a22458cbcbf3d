import SigV4.Checksum.Algorithm
import SigV4.Http.Uri
import SigV4.Text.Utf8

/-!
Why signing fails.

Each cause has a kind, which says who has to act, and a wording. A cause that comes from
reading a part of a message has that reader's wording.
-/

namespace SigV4

/-- Who has to act. -/
inductive Error.Kind where
  | credentialInvalid
  | credentialExpired
  | requestInvalid
  | payloadInvalid
  | configInvalid
  | unexpected
  deriving DecidableEq, Repr

/-- The wording of a kind. -/
def Error.Kind.text : Error.Kind → String
  | credentialInvalid => "invalid credentials"
  | credentialExpired => "expired credentials"
  | requestInvalid => "invalid request"
  | payloadInvalid => "invalid payload"
  | configInvalid => "invalid configuration"
  | unexpected => "unexpected error"

/-- A cause of failure. The last one is for causes that other parts of a program raise. -/
inductive Error where
  | serviceMissing
  | regionMissing
  | keysMissing
  | identityUnusable
  | hostMissing
  | payloadNotInMemory (algorithm : Checksum.Algorithm) (headerName : String)
  | algorithmUnknown (name : String)
  | timeMalformed (text : String)
  | methodMalformed
  | headerNameMalformed
  | headerValueMalformed
  | headerValueUnreadable
  | uriMalformed (fault : Http.Uri.Fault)
  | notUtf8 (fault : Utf8.Fault)
  | formatting
  | other (kind : Error.Kind) (message : String) (source : Option String)
  deriving DecidableEq, Repr

namespace Error

/-- Who has to act on a cause. -/
def kind : Error → Kind
  | serviceMissing | regionMissing | algorithmUnknown _ => .configInvalid
  | keysMissing | identityUnusable => .credentialInvalid
  | payloadNotInMemory _ _ => .payloadInvalid
  | hostMissing | timeMalformed _ | methodMalformed | headerNameMalformed
  | headerValueMalformed | headerValueUnreadable | uriMalformed _ | notUtf8 _ => .requestInvalid
  | formatting => .unexpected
  | other kind _ _ => kind

/-- The wording of a cause. -/
def message : Error → String
  | serviceMissing => "service is required for signing"
  | regionMissing => "region is required for signing"
  | keysMissing => "access key id and secret access key are required for signing"
  | identityUnusable => "resolved identity is empty or about to expire"
  | hostMissing => "request has neither host header nor authority"
  | payloadNotInMemory algorithm headerName =>
    algorithm.name ++ " checksum in header " ++ headerName ++ " requires an in-memory payload"
  | algorithmUnknown name => "unknown checksum algorithm: " ++ name
  | timeMalformed text => "failed to parse iso8601 time " ++ text
  | methodMalformed => "invalid HTTP method"
  | headerNameMalformed => "invalid HTTP header name"
  | headerValueMalformed => "failed to parse header value"
  | headerValueUnreadable => "failed to convert header to a str"
  | uriMalformed fault => fault.message
  | notUtf8 fault => fault.message
  | formatting => "an error occurred when formatting an argument"
  | other _ message _ => message

/-- What is shown of a cause. -/
def text (e : Error) : String := e.kind.text ++ ": " ++ e.message

/-- The wording of the reader a cause comes from. -/
def source : Error → Option String
  | e@methodMalformed | e@headerNameMalformed | e@headerValueMalformed
  | e@headerValueUnreadable | e@(uriMalformed _) | e@(notUtf8 _) | e@formatting => some e.message
  | other _ _ source => source
  | _ => none

/-- The credential is at fault. -/
def isCredentialError (e : Error) : Bool :=
  e.kind = .credentialInvalid || e.kind = .credentialExpired

end Error

end SigV4
