import SigV4.Config
import SigV4.Request.Basic

/-!
Canonical paths.

Normalizing a path runs a stack over its segments: a name is pushed, `..` takes the last name
off, an empty segment and `.` change nothing. What is left is written with a slash before each
name; a slash at the end stays. Encoding a path leaves its slashes alone.
-/

namespace SigV4.Canonical

/-- The segments of a path. -/
def segments (path : List Char) : List (List Char) := path.splitOn '/'

/-- What a segment does to the names before it, the last name first. -/
def visit (stack : List (List Char)) (segment : List Char) : List (List Char) :=
  if segment = [] ∨ segment = ['.'] then stack
  else if segment = ['.', '.'] then stack.tail
  else segment :: stack

/-- The names that are left of a path. -/
def names (path : List Char) : List (List Char) := ((segments path).foldl visit []).reverse

/-- A path without dot segments and empty segments. -/
def normalize (path : List Char) : List Char :=
  let written := (names path).flatMap fun name => '/' :: name
  if written = [] ∨ path.getLast? = some '/' then written ++ ['/'] else written

/-- The canonical path of a request. -/
def path (c : Config) (r : Request) : Except Error String := do
  let path ← match c.pathEncoding with
    | .double => Except.ok r.path
    | .single => r.decodedPath
  if path = "" then return "/"
  else
    let path := if c.normalizePath then String.ofList (normalize path.toList) else path
    return Percent.encode Percent.unreservedOrSlash path

end SigV4.Canonical
