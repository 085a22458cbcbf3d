import SigV4.Digest.Word

/-!
Hashing by blocks of sixty-four octets.

A message is completed to a whole number of blocks, and each block in turn changes the chained
value. A running hash does the same for a message that comes in pieces: it holds the value
chained over the blocks that are full, the octets of the block that is not, and how many octets
came in. It can be asked for its result at any time without being disturbed, and then gives what
the message so far gives at once.
-/

namespace SigV4.Digest

/-- The octets of a block. -/
def blockSize : Nat := 64

/-- A hash function, given by what it chains and how a full block changes it. -/
structure BlockHash (α : Type) where
  initial : α
  compress : α → Array UInt8 → α

/-- A running hash. -/
structure Running (α : Type) where
  chain : α
  pending : Array UInt8
  count : Nat
  pending_lt : pending.size < blockSize

namespace BlockHash

variable {α : Type} (H : BlockHash α)

/-- What completes a message of `n` octets: a set bit, zeros to eight octets short of a block,
and the length in bits. -/
def padding (n : Nat) : Octets :=
  0x80 :: (List.replicate ((119 - n % 64) % 64) 0 ++ lengthOctets (8 * n))

/-- The value chained over the blocks of a completed message. -/
def chain (v : α) (bs : Octets) : α :=
  if bs.isEmpty then v else chain (H.compress v (bs.take blockSize).toArray) (bs.drop blockSize)
termination_by bs.length
decreasing_by
  have : bs.length ≠ 0 := by simpa using ‹¬bs.isEmpty = true›
  rw [List.length_drop, blockSize]
  omega

/-- The value chained over a message. -/
def value (message : Octets) : α := H.chain H.initial (message ++ padding message.length)

/-- A hash that has seen nothing. -/
def start : Running α := ⟨H.initial, #[], 0, by decide⟩

/-- Takes one octet, and the block if the octet fills it. -/
def absorb (r : Running α) (b : UInt8) : Running α :=
  if h : r.pending.size + 1 < blockSize then
    ⟨r.chain, r.pending.push b, r.count + 1, by rwa [Array.size_push]⟩
  else ⟨H.compress r.chain (r.pending.push b), #[], r.count + 1, by decide⟩

/-- Takes a sequence of octets. -/
def update (r : Running α) (bs : Octets) : Running α := bs.foldl H.absorb r

/-- The value chained over what a running hash has seen. -/
def finish (r : Running α) : α := (H.update r (padding r.count)).chain

@[simp] theorem update_nil (r : Running α) : H.update r [] = r := rfl

theorem update_append (r : Running α) (u v : Octets) :
    H.update r (u ++ v) = H.update (H.update r u) v := by
  simp [update, List.foldl_append]

theorem count_absorb (r : Running α) (b : UInt8) : (H.absorb r b).count = r.count + 1 := by
  unfold absorb
  split <;> rfl

theorem count_update (r : Running α) (bs : Octets) :
    (H.update r bs).count = r.count + bs.length := by
  induction bs generalizing r with
  | nil => rfl
  | cons b bs ih =>
    rw [update, List.foldl_cons, ← update, ih, count_absorb, List.length_cons]
    omega

theorem length_padding (n : Nat) : (n + (padding n).length) % blockSize = 0 := by
  have : (lengthOctets (8 * n)).length = 8 := by simp [lengthOctets]
  simp only [padding, List.length_cons, List.length_append, List.length_replicate, blockSize, this]
  omega

theorem chain_update (r : Running α) (bs : Octets)
    (h : (r.pending.size + bs.length) % blockSize = 0) :
    (H.update r bs).chain = H.chain r.chain (r.pending.toList ++ bs) := by
  induction bs generalizing r with
  | nil =>
    have hr := r.pending_lt
    have hempty : r.pending = #[] := by
      rw [← Array.size_eq_zero_iff]
      rw [List.length_nil, Nat.add_zero, Nat.mod_eq_of_lt hr] at h
      exact h
    rw [update_nil, chain, hempty]
    rfl
  | cons b bs ih =>
    have hr := r.pending_lt
    rw [List.length_cons] at h
    rw [update, List.foldl_cons, ← update, absorb]
    split
    · rw [ih _ (by rw [Array.size_push, ← h, Nat.add_right_comm, Nat.add_assoc])]
      simp
    · have hsize : r.pending.size + 1 = blockSize := by omega
      have hfull : (r.pending.push b).toList.length = blockSize := by simpa using hsize
      have hcut : r.pending.toList ++ b :: bs = (r.pending.push b).toList ++ bs := by simp
      have hrest : bs.length % blockSize = 0 := by
        rwa [show r.pending.size + (bs.length + 1) = blockSize + bs.length by omega,
          Nat.add_mod_left] at h
      rw [ih _ (by simpa using hrest), hcut]
      conv => rhs; rw [chain, List.take_left' hfull, List.drop_left' hfull, Array.toArray_toList]
      rw [if_neg (by simp)]
      rfl

/-- A running hash gives what its message gives at once. -/
theorem finish_update_start (message : Octets) :
    H.finish (H.update H.start message) = H.value message := by
  have hcount : (H.update H.start message).count = message.length := by
    rw [count_update]
    exact Nat.zero_add _
  rw [finish, hcount, ← update_append, chain_update]
  · rfl
  · rw [List.length_append, ← length_padding message.length]
    simp [start]

end BlockHash

end SigV4.Digest
