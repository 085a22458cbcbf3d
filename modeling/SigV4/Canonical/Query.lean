import SigV4.Request.Query

/-!
Canonical queries.

Pairs with a name are encoded and sorted by encoded name, then by encoded value; an absent
value is written like an empty one.
-/

namespace SigV4.Canonical

/-- Order of pairs, names first. -/
def pairLE (p q : String × String) : Bool := p.1 < q.1 || (p.1 = q.1 && p.2 ≤ q.2)

/-- Name and value of a pair as they are written. -/
def encodePair (p : QueryPair) : String × String :=
  (Percent.encode Percent.unreserved p.1, Percent.encode Percent.unreserved (p.2.getD ""))

/-- The pairs that are signed, encoded and in order. -/
def queryPairs (ps : List QueryPair) : List (String × String) :=
  ((ps.filter fun p => p.1 ≠ "").map encodePair).mergeSort pairLE

/-- The canonical query of a list of pairs. -/
def query (ps : List QueryPair) : String :=
  String.intercalate "&" ((queryPairs ps).map fun p => p.1 ++ "=" ++ p.2)

end SigV4.Canonical
