import SigV4.Digest.Word

/-!
Cyclic redundancy checks of thirty-two bits.

The bits of a message enter a register one by one, low bit of each octet first. The register
starts with all bits set and is inverted at the end. A check is fixed by its polynomial, written
low bit first as well.

An octet may also enter at once: it is added to the register, which is then shifted eight times.
Both ways come to the same, since the shift is linear.
-/

namespace SigV4.Digest.Crc

/-- The polynomial of Ethernet and zip. -/
def ieee : UInt32 := 0xedb88320

/-- The polynomial of Castagnoli. -/
def castagnoli : UInt32 := 0x82f63b78

def start : UInt32 := 0xffffffff

/-- The low bit of a word. -/
def lowBit (w : UInt32) : Bool := w &&& 1 = 1

/-- One bit leaves the register. -/
def shift (polynomial r : UInt32) : UInt32 :=
  if lowBit r then (r >>> 1) ^^^ polynomial else r >>> 1

/-- One bit enters the register, and one leaves it. -/
def absorbBit (polynomial r : UInt32) (bit : Bool) : UInt32 :=
  shift polynomial (if bit then r ^^^ 1 else r)

/-- The low bits of a word, that many of them, lowest first. -/
def lowBits : Nat → UInt32 → List Bool
  | 0, _ => []
  | n + 1, w => lowBit w :: lowBits n (w >>> 1)

/-- The bits of an octet enter the register. -/
def absorbBits (polynomial r : UInt32) (b : UInt8) : UInt32 :=
  (lowBits 8 b.toUInt32).foldl (absorbBit polynomial) r

/-- The check of what the register has seen. -/
def result (r : UInt32) : Octets := wordOctets r.complement

/-- The check of a message. -/
def check (polynomial : UInt32) (message : Octets) : Octets :=
  result (message.foldl (absorbBits polynomial) start)

/-- Several bits leave the register. -/
def shifts (polynomial : UInt32) : Nat → UInt32 → UInt32
  | 0, r => r
  | n + 1, r => shifts polynomial n (shift polynomial r)

/-- One octet enters the register. -/
def absorb (polynomial r : UInt32) (b : UInt8) : UInt32 :=
  shifts polynomial 8 (r ^^^ b.toUInt32)

/-- A sequence of octets enters the register. -/
def update (polynomial r : UInt32) (bs : Octets) : UInt32 := bs.foldl (absorb polynomial) r

/-- The check of a longer message, from the check of its beginning: the inversion at the end is
undone and done again. -/
def append (polynomial v : UInt32) (bs : Octets) : UInt32 := ~~~update polynomial (~~~v) bs

@[simp] theorem update_nil (polynomial r : UInt32) : update polynomial r [] = r := rfl

theorem update_append (polynomial r : UInt32) (u v : Octets) :
    update polynomial r (u ++ v) = update polynomial (update polynomial r u) v := by
  simp [update, List.foldl_append]

@[simp] theorem append_nil (polynomial v : UInt32) : append polynomial v [] = v := UInt32.not_not

theorem append_append (polynomial v : UInt32) (u w : Octets) :
    append polynomial v (u ++ w) = append polynomial (append polynomial v u) w := by
  simp only [append, update_append, UInt32.not_not]

theorem lowBit_eq_testBit (w : UInt32) : lowBit w = w.toNat.testBit 0 := by
  simp [lowBit, ← UInt32.toNat_inj]

theorem lowBit_xor (r w : UInt32) : lowBit (r ^^^ w) = (lowBit r ^^ lowBit w) := by
  simp only [lowBit_eq_testBit, UInt32.toNat_xor, Nat.testBit_xor]

theorem shift_xor (polynomial r w : UInt32) :
    shift polynomial (r ^^^ w) = absorbBit polynomial r (lowBit w) ^^^ (w >>> 1) := by
  have hone : (1 : UInt32) >>> 1 = 0 := by decide
  have hlow : lowBit 1 = true := by decide
  cases hr : lowBit r <;> cases hw : lowBit w <;>
    simp [shift, absorbBit, lowBit_xor, UInt32.shiftRight_xor, hr, hw, hone, hlow,
      UInt32.xor_assoc, UInt32.xor_comm polynomial]

/-- Adding a word of `n` bits and shifting `n` times is entering these bits. -/
theorem shifts_xor (polynomial : UInt32) {n : Nat} (r : UInt32) {w : UInt32}
    (hw : w.toNat >>> n = 0) :
    shifts polynomial n (r ^^^ w) = (lowBits n w).foldl (absorbBit polynomial) r := by
  induction n generalizing r w with
  | zero =>
    have hzero : w = 0 := UInt32.toNat_inj.1 hw
    rw [hzero, UInt32.xor_zero]
    rfl
  | succ n ih =>
    have hhalf : (w >>> 1).toNat >>> n = 0 := by
      rw [← hw, Nat.shiftRight_succ_inside, UInt32.toNat_shiftRight]
      rfl
    rw [shifts, shift_xor, ih _ hhalf, lowBits, List.foldl_cons]

theorem absorb_eq_absorbBits (polynomial r : UInt32) (b : UInt8) :
    absorb polynomial r b = absorbBits polynomial r b :=
  shifts_xor polynomial r <| by
    rw [UInt8.toNat_toUInt32, Nat.shiftRight_eq_div_pow]
    exact Nat.div_eq_of_lt b.toNat_lt

/-- Octet by octet a message leaves in the register what it leaves bit by bit. -/
theorem result_update_start (polynomial : UInt32) (message : Octets) :
    result (update polynomial start message) = check polynomial message := by
  have h : absorb polynomial = absorbBits polynomial :=
    funext fun r => funext fun b => absorb_eq_absorbBits polynomial r b
  rw [update, check, h]

theorem wordOctets_append_zero (polynomial : UInt32) (message : Octets) :
    wordOctets (append polynomial 0 message) = check polynomial message := by
  rw [← result_update_start]
  rfl

end SigV4.Digest.Crc
