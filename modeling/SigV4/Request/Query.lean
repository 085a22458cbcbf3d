import SigV4.Text.Percent
import SigV4.Text.Utf8

/-!
Query pairs.

The text of a query is cut at each `&`, and each piece at its first `=`. A piece without `=`
is a name without a value, which is not the same as a name with an empty one. Names and values
are percent decoded; octets that form no character are replaced.
-/

namespace SigV4

/-- A name with its value, if it has one. -/
abbrev QueryPair := String × Option String

namespace Query

/-- The text that an encoded piece stands for. -/
def decodeText (cs : List Char) : String :=
  Utf8.decodeLossy (Percent.decode (utf8 (String.ofList cs)))

/-- The pair that a piece of a query stands for. -/
def pair (piece : List Char) : QueryPair :=
  let name := decodeText (piece.takeWhile (· != '='))
  match piece.dropWhile (· != '=') with
  | [] => (name, none)
  | _ :: value => (name, some (decodeText value))

/-- The pairs of a query; empty pieces are none. -/
def parse (query : String) : List QueryPair :=
  ((query.toList.splitOn '&').filter fun piece => !piece.isEmpty).map pair

/-- A pair as it is written. -/
def write (p : QueryPair) : String :=
  let name := Percent.encode Percent.unreserved p.1
  match p.2 with
  | none => name
  | some value => name ++ "=" ++ Percent.encode Percent.unreserved value

/-- A pair that leaves no trace when it is written. -/
def isVoid (p : QueryPair) : Bool := p.1 = "" && p.2.isNone

/-- A query with its question mark, or nothing if no pair is to be written. -/
def render (ps : List QueryPair) : String :=
  match (ps.filter fun p => !isVoid p).map write with
  | [] => ""
  | written => "?" ++ String.intercalate "&" written

end Query

end SigV4
