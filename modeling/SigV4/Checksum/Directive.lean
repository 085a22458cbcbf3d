import SigV4.Checksum.Algorithm

/-!
What a caller asks for to guard a payload: which checksum, under which header, sent before or
after the body.
-/

namespace SigV4.Checksum

/-- Before the body, as a signed header, or after a streamed body, when only its name is
signed. -/
inductive Placement where
  | header
  | trailer
  deriving DecidableEq, Repr

/-- A request to guard the payload. A value given here is used instead of a computed one. -/
structure Directive where
  algorithm : Algorithm
  headerName : String
  placement : Placement
  value : Option String
  deriving DecidableEq, Repr

namespace Directive

/-- A directive under the algorithm's own header. -/
def of (a : Algorithm) (p : Placement) : Directive := ⟨a, a.headerName, p, none⟩

/-- The same under another header, kept in lower case. -/
def withHeaderName (d : Directive) (name : String) : Directive :=
  { d with headerName := Ascii.lower name }

/-- The same with a checksum the caller knows. -/
def withValue (d : Directive) (value : String) : Directive := { d with value := some value }

/-- The line sent after a streamed body. -/
def trailerLine (d : Directive) (value : String) : String := d.headerName ++ ":" ++ value

end Directive

end SigV4.Checksum
