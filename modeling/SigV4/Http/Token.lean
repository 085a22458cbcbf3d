import SigV4.Text.Octets
import SigV4.Text.Ascii

/-!
Tokens: the words that methods and header names are made of.

A token is a nonempty run of ASCII letters, digits and fifteen marks. No separator of a
message, no blank and no control character is among them, so a token can neither end a line
nor pass for two.
-/

namespace SigV4.Http

/-- A character that may stand in a token. -/
def isTokenChar (c : Char) : Bool :=
  c.isAlphanum || c == '!' || c == '#' || c == '$' || c == '%' || c == '&' || c == '\x27' ||
    c == '*' || c == '+' || c == '-' || c == '.' || c == '^' || c == '_' || c == '\x60' ||
    c == '|' || c == '~'

/-- A request method. Its case is kept. -/
structure Method where
  text : String
  isToken : text ≠ "" ∧ text.toList.all isTokenChar = true
  deriving DecidableEq

namespace Method

def get : Method := ⟨"GET", by decide⟩

/-- The method of that text, if it is a token. -/
def ofText? (s : String) : Option Method :=
  if h : s ≠ "" ∧ s.toList.all isTokenChar = true then some ⟨s, h⟩ else none

/-- The method written as these octets. -/
def ofOctets? (bs : Octets) : Option Method := ofText? (asciiText bs)

end Method

/-- The most octets a header name may have. -/
def maxNameLength : Nat := 65535

/-- A character that may stand in a header name in its stored form. -/
def isNameChar (c : Char) : Bool := isTokenChar c && !c.isUpper

/-- A header name, in lower case. -/
structure HeaderName where
  text : String
  isName : text ≠ "" ∧ text.length ≤ maxNameLength ∧ text.toList.all isNameChar = true
  deriving DecidableEq

namespace HeaderName

/-- The name of that text in any letter case, if it is a token of allowed length. -/
def ofText? (s : String) : Option HeaderName :=
  let t := Ascii.lower s
  if h : t ≠ "" ∧ t.length ≤ maxNameLength ∧ t.toList.all isNameChar = true then some ⟨t, h⟩
  else none

/-- The name written as these octets. -/
def ofOctets? (bs : Octets) : Option HeaderName := ofText? (asciiText bs)

def authorization : HeaderName := ⟨"authorization", by decide⟩
def host : HeaderName := ⟨"host", by decide⟩
def date : HeaderName := ⟨"x-amz-date", by decide⟩
def contentHash : HeaderName := ⟨"x-amz-content-sha256", by decide⟩
def securityToken : HeaderName := ⟨"x-amz-security-token", by decide⟩
def trailer : HeaderName := ⟨"x-amz-trailer", by decide⟩

@[simp] theorem ofText?_text (n : HeaderName) : ofText? n.text = some n := by
  have hlower : Ascii.lower n.text = n.text := by
    rw [Ascii.lower, ← String.toList_inj, String.toList_ofList, List.map_congr_left, List.map_id]
    intro c hc
    have h := List.all_eq_true.1 n.isName.2.2 c hc
    have hc : c.isUpper = false := by simp [isNameChar] at h; exact h.2
    exact Ascii.toLower_eq_self hc
  simp [ofText?, hlower, n.isName]

theorem ext_text {m n : HeaderName} (h : m.text = n.text) : m = n := by
  cases m; cases n; cases h; rfl

end HeaderName

end SigV4.Http
