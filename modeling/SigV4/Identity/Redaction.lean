/-!
Showing secrets without giving them away.

A short secret is hidden altogether. Of a long one the first and the last three octets are
shown, which tells two secrets apart. They are shown as text, so they must be whole
characters; where a cut would go through one, nothing can be shown at all.
-/

namespace SigV4.Redaction

/-- A secret of fewer octets is hidden altogether. -/
def threshold : Nat := 12

/-- How many octets are shown at either end. -/
def margin : Nat := 3

/-- The characters of the first `n` octets and the others, unless the cut goes through one. -/
def cut? : Nat → List Char → Option (List Char × List Char)
  | 0, cs => some ([], cs)
  | _ + 1, [] => none
  | n + 1, c :: cs =>
    if c.utf8Size ≤ n + 1 then (cut? (n + 1 - c.utf8Size) cs).map fun r => (c :: r.1, r.2)
    else none

/-- What is shown of a secret. -/
def redact? (s : String) : Option String :=
  let length := s.utf8ByteSize
  if length = 0 then some "EMPTY"
  else if length < threshold then some "***"
  else do
    let (start, _) ← cut? margin s.toList
    let (_, tail) ← cut? (length - margin) s.toList
    return String.ofList start ++ "***" ++ String.ofList tail

end SigV4.Redaction
