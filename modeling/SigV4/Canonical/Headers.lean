import SigV4.Canonical.Query
import SigV4.Config
import SigV4.Request.Basic

/-!
Canonical headers.

Each name that is not left out has one line, with its values folded and joined by commas.
Folding keeps the words of a value and puts one space between them; quotes have no meaning.
-/

namespace SigV4.Canonical

/-- The words of a text: its longest runs without blanks. -/
def words (cs : List Char) : List (List Char) :=
  (cs.splitOnP Ascii.isBlank).filter fun word => !word.isEmpty

/-- A text with one space between its words and no blank around them. -/
def fold (s : String) : String :=
  String.ofList (List.intercalate [' '] (words s.toList))

/-- The values of a name, folded and joined. -/
def headerValue (values : List Http.HeaderValue) : Except Error String := do
  let folded ← values.mapM fun v => (Request.readValue v).map fold
  return String.intercalate "," folded

/-- The line of a name. -/
def headerLine (r : Request) (n : Http.HeaderName) : Except Error (String × String) := do
  let value ← headerValue (r.headers.values n)
  return (n.text, value)

/-- The names that are signed. -/
def signedNames (c : Config) (r : Request) : List Http.HeaderName :=
  r.headers.names.filter fun n => !c.isExcluded n.text

/-- The names that are signed, with their folded values, in order. -/
def headers (c : Config) (r : Request) : Except Error (List (String × String)) := do
  let lines ← (signedNames c r).mapM (headerLine r)
  return lines.mergeSort pairLE

end SigV4.Canonical
