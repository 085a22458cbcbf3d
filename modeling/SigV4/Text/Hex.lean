import SigV4.Text.Octets

/-!
Hexadecimal digits.

Digests are written in lower case, percent escapes in upper case; a reader takes both.
-/

namespace SigV4.Hex

/-- The character of a digit below sixteen, letters in lower case. -/
def lowerDigit (n : Nat) : Char :=
  if n < 10 then Char.ofNat (48 + n) else Char.ofNat (87 + n)

/-- The character of a digit below sixteen, letters in upper case. -/
def upperDigit (n : Nat) : Char :=
  if n < 10 then Char.ofNat (48 + n) else Char.ofNat (55 + n)

/-- The value of an octet that is a hexadecimal digit in either case. -/
def digit? (b : UInt8) : Option Nat :=
  if 48 ≤ b.toNat ∧ b.toNat ≤ 57 then some (b.toNat - 48)
  else if 65 ≤ b.toNat ∧ b.toNat ≤ 70 then some (b.toNat - 55)
  else if 97 ≤ b.toNat ∧ b.toNat ≤ 102 then some (b.toNat - 87)
  else none

/-- Two digits for each octet, the high half first. -/
def digits (bs : Octets) : List Char :=
  bs.flatMap fun b => [lowerDigit (b.toNat / 16), lowerDigit (b.toNat % 16)]

/-- The digits of an octet sequence as text. -/
def encode (bs : Octets) : String := String.ofList (digits bs)

theorem length_digits (bs : Octets) : (digits bs).length = 2 * bs.length := by
  induction bs with
  | nil => rfl
  | cons b bs ih => simp only [digits, List.flatMap_cons, List.length_append] at *; simp [ih]; omega

end SigV4.Hex
