/-!
Decimal digits.

Numbers in time stamps are written with a fixed count of digits, zeros in front.
-/

namespace SigV4.Decimal

/-- The character of a digit below ten. -/
def digit (n : Nat) : Char := Char.ofNat (48 + n)

/-- The last `width` digits of a number. -/
def fixed : Nat → Nat → List Char
  | 0, _ => []
  | width + 1, n => fixed width (n / 10) ++ [digit (n % 10)]

/-- All digits of a number, and zeros in front up to `width` of them. -/
def atLeast (width n : Nat) : List Char :=
  let ds := Nat.toDigits 10 n
  if ds.length ≤ width then fixed width n else ds

/-- The number that a run of digits stands for. -/
def value (ds : List Char) : Nat := ds.foldl (fun n c => 10 * n + (c.toNat - 48)) 0

@[simp] theorem length_fixed (width n : Nat) : (fixed width n).length = width := by
  induction width generalizing n with
  | zero => rfl
  | succ w ih => simp [fixed, ih]

end SigV4.Decimal
