/-!
Letter case and blanks, for ASCII only.

Header names, algorithm names and a few reserved words are compared without regard to the
case of `A` to `Z`. Every other character, also a letter of another alphabet, stands for
itself.
-/

namespace SigV4.Ascii

/-- The text with `A` to `Z` in lower case. -/
def lower (s : String) : String := String.ofList (s.toList.map Char.toLower)

/-- The text with `a` to `z` in upper case. -/
def upper (s : String) : String := String.ofList (s.toList.map Char.toUpper)

/-- Equality up to the case of ASCII letters. -/
def sameLetters (s t : String) : Bool := lower s == lower t

/-- Space, tab, line feed, form feed and carriage return separate the words of a value. -/
def isBlank (c : Char) : Bool :=
  c == ' ' || c == '\t' || c == '\n' || c == '\x0c' || c == '\r'

theorem toLower_eq_self {c : Char} (h : c.isUpper = false) : c.toLower = c := by
  have h : ¬(c.val ≥ 'A'.val ∧ c.val ≤ 'Z'.val) := fun hc =>
    absurd ((decide_eq_true hc).symm.trans h) Bool.noConfusion
  exact dif_neg h

@[simp] theorem toList_lower (s : String) : (lower s).toList = s.toList.map Char.toLower := by
  simp [lower]

end SigV4.Ascii
