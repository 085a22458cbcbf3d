/-!
Octet sequences, and text as octets.

Everything that is hashed, encoded or sent is a list of octets. A text is written as octets
character by character, so the octets of a concatenation are the concatenated octets.
-/

namespace SigV4

/-- A sequence of eight-bit bytes. -/
abbrev Octets := List UInt8

/-- The UTF-8 form of a text. -/
def utf8 (s : String) : Octets := s.toList.flatMap String.utf8EncodeChar

@[simp] theorem utf8_empty : utf8 "" = [] := rfl

@[simp] theorem utf8_append (s t : String) : utf8 (s ++ t) = utf8 s ++ utf8 t := by
  simp [utf8]

/-- The text of octets that are all below 128, one character each. -/
def asciiText (bs : Octets) : String := String.ofList (bs.map Char.ofUInt8)

end SigV4
