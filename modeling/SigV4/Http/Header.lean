import SigV4.Http.Token

/-!
Header values and the headers of a message.

A value is octets without control characters other than the tab. A message may carry several
values under one name, and their order matters; the order of different names does not, so
what a message says is the list of values of each name.
-/

namespace SigV4.Http

/-- An octet that may stand in a header value. -/
def isValueOctet (b : UInt8) : Bool := (32 ≤ b.toNat && b.toNat != 127) || b.toNat == 9

/-- An octet of a header value that reads as text. -/
def isVisibleOctet (b : UInt8) : Bool := (32 ≤ b.toNat && b.toNat < 127) || b.toNat == 9

/-- A header value. A sensitive one is not to be shown to people. -/
structure HeaderValue where
  octets : Octets
  sensitive : Bool
  isValue : octets.all isValueOctet = true
  deriving DecidableEq

namespace HeaderValue

/-- The value written as these octets, not sensitive. -/
def ofOctets? (bs : Octets) : Option HeaderValue :=
  if h : bs.all isValueOctet = true then some ⟨bs, false, h⟩ else none

/-- The value of that text. -/
def ofText? (s : String) : Option HeaderValue := ofOctets? (utf8 s)

/-- The text of a value, if every octet of it reads as text. -/
def text? (v : HeaderValue) : Option String :=
  if v.octets.all isVisibleOctet then some (asciiText v.octets) else none

/-- The same value, not to be shown. -/
def hide (v : HeaderValue) : HeaderValue := { v with sensitive := true }

end HeaderValue

/-- The headers of a message, in the order they were added. -/
structure Headers where
  entries : List (HeaderName × HeaderValue)
  deriving DecidableEq

namespace Headers

def empty : Headers := ⟨[]⟩

/-- The values under a name, in order. -/
def values (hs : Headers) (n : HeaderName) : List HeaderValue :=
  hs.entries.filterMap fun e => if e.1 = n then some e.2 else none

/-- The first value under a name. -/
def get? (hs : Headers) (n : HeaderName) : Option HeaderValue := (hs.values n).head?

/-- There is a value under the name. -/
def contains (hs : Headers) (n : HeaderName) : Bool := hs.entries.any fun e => e.1 = n

/-- The names that have a value, each once. -/
def names (hs : Headers) : List HeaderName := (hs.entries.map Prod.fst).eraseDups

/-- Adds a value after those the name has. -/
def append (hs : Headers) (n : HeaderName) (v : HeaderValue) : Headers :=
  ⟨hs.entries ++ [(n, v)]⟩

/-- Drops the values of a name. -/
def erase (hs : Headers) (n : HeaderName) : Headers :=
  ⟨hs.entries.filter fun e => e.1 ≠ n⟩

/-- Puts one value in place of those the name has. -/
def insert (hs : Headers) (n : HeaderName) (v : HeaderValue) : Headers :=
  (hs.erase n).append n v

theorem values_append (hs : Headers) (m n : HeaderName) (v : HeaderValue) :
    (hs.append m v).values n = hs.values n ++ if m = n then [v] else [] := by
  by_cases h : m = n <;> simp [append, values, h]

theorem values_erase (hs : Headers) (m n : HeaderName) :
    (hs.erase m).values n = if m = n then [] else hs.values n := by
  unfold erase values
  rw [List.filterMap_filter]
  by_cases h : m = n
  · subst h
    rw [if_pos rfl]
    refine List.filterMap_eq_nil_iff.2 fun e _ => ?_
    by_cases he : e.1 = m <;> simp [he]
  · rw [if_neg h]
    congr 1
    funext e
    by_cases he : e.1 = n
    · simp [he, Ne.symm h]
    · simp [he]

theorem values_insert (hs : Headers) (m n : HeaderName) (v : HeaderValue) :
    (hs.insert m v).values n = if m = n then [v] else hs.values n := by
  rw [insert, values_append, values_erase]
  by_cases h : m = n <;> simp [h]

theorem contains_iff (hs : Headers) (n : HeaderName) :
    hs.contains n = true ↔ hs.values n ≠ [] := by
  rw [ne_eq, values, List.filterMap_eq_nil_iff]
  simp [contains]

theorem mem_names (hs : Headers) (n : HeaderName) :
    n ∈ hs.names ↔ hs.values n ≠ [] := by
  rw [← contains_iff]
  simp [names, contains]

end Headers

end SigV4.Http
