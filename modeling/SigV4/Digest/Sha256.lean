import SigV4.Digest.Blocks

/-!
SHA-256: thirty-two octets, whatever the message.
-/

namespace SigV4.Digest.Sha256

/-- The chained value, eight words. -/
structure State where
  a : UInt32
  b : UInt32
  c : UInt32
  d : UInt32
  e : UInt32
  f : UInt32
  g : UInt32
  h : UInt32

/-- The first thirty-two bits of the fractional parts of the square roots of eight primes. -/
def initial : State :=
  ⟨0x6a09e667, 0xbb67ae85, 0x3c6ef372, 0xa54ff53a, 0x510e527f, 0x9b05688c, 0x1f83d9ab, 0x5be0cd19⟩

/-- The first thirty-two bits of the fractional parts of the cube roots of sixty-four primes. -/
def constants : Array UInt32 := #[
  0x428a2f98, 0x71374491, 0xb5c0fbcf, 0xe9b5dba5, 0x3956c25b, 0x59f111f1, 0x923f82a4, 0xab1c5ed5,
  0xd807aa98, 0x12835b01, 0x243185be, 0x550c7dc3, 0x72be5d74, 0x80deb1fe, 0x9bdc06a7, 0xc19bf174,
  0xe49b69c1, 0xefbe4786, 0x0fc19dc6, 0x240ca1cc, 0x2de92c6f, 0x4a7484aa, 0x5cb0a9dc, 0x76f988da,
  0x983e5152, 0xa831c66d, 0xb00327c8, 0xbf597fc7, 0xc6e00bf3, 0xd5a79147, 0x06ca6351, 0x14292967,
  0x27b70a85, 0x2e1b2138, 0x4d2c6dfc, 0x53380d13, 0x650a7354, 0x766a0abb, 0x81c2c92e, 0x92722c85,
  0xa2bfe8a1, 0xa81a664b, 0xc24b8b70, 0xc76c51a3, 0xd192e819, 0xd6990624, 0xf40e3585, 0x106aa070,
  0x19a4c116, 0x1e376c08, 0x2748774c, 0x34b0bcb5, 0x391c0cb3, 0x4ed8aa4a, 0x5b9cca4f, 0x682e6ff3,
  0x748f82ee, 0x78a5636f, 0x84c87814, 0x8cc70208, 0x90befffa, 0xa4506ceb, 0xbef9a3f7, 0xc67178f2]

/-- One more word of the schedule, from four earlier ones. -/
def nextWord (w : Array UInt32) : UInt32 :=
  let n := w.size
  let x := w.getD (n - 15) 0
  let y := w.getD (n - 2) 0
  let s0 := rotateRight x 7 ^^^ rotateRight x 18 ^^^ (x >>> 3)
  let s1 := rotateRight y 17 ^^^ rotateRight y 19 ^^^ (y >>> 10)
  w.getD (n - 16) 0 + s0 + w.getD (n - 7) 0 + s1

/-- The sixteen words of the block and forty-eight more. -/
def schedule (block : Array UInt8) : Array UInt32 :=
  let first := (List.range 16).foldl (fun w i => w.push (wordAt block i)) #[]
  (List.range 48).foldl (fun w _ => w.push (nextWord w)) first

/-- One round, with its constant and its word of the schedule added up. -/
def round (s : State) (kw : UInt32) : State :=
  let s1 := rotateRight s.e 6 ^^^ rotateRight s.e 11 ^^^ rotateRight s.e 25
  let choice := (s.e &&& s.f) ^^^ (s.e.complement &&& s.g)
  let t1 := s.h + s1 + choice + kw
  let s0 := rotateRight s.a 2 ^^^ rotateRight s.a 13 ^^^ rotateRight s.a 22
  let majority := (s.a &&& s.b) ^^^ (s.a &&& s.c) ^^^ (s.b &&& s.c)
  ⟨t1 + (s0 + majority), s.a, s.b, s.c, s.d + t1, s.e, s.f, s.g⟩

def add (s t : State) : State :=
  ⟨s.a + t.a, s.b + t.b, s.c + t.c, s.d + t.d, s.e + t.e, s.f + t.f, s.g + t.g, s.h + t.h⟩

def compress (s : State) (block : Array UInt8) : State :=
  let w := schedule block
  add s ((List.range 64).foldl (fun t i => round t (constants.getD i 0 + w.getD i 0)) s)

def hash : BlockHash State := ⟨initial, compress⟩

/-- The chained value as octets. -/
def State.octets (s : State) : Octets :=
  wordOctets s.a ++ wordOctets s.b ++ wordOctets s.c ++ wordOctets s.d ++
    wordOctets s.e ++ wordOctets s.f ++ wordOctets s.g ++ wordOctets s.h

/-- The digest of a message. -/
def digest (message : Octets) : Octets := (hash.value message).octets

/-- The digest of what a running hash has seen. -/
def result (r : Running State) : Octets := (hash.finish r).octets

@[simp] theorem length_digest (message : Octets) : (digest message).length = 32 := rfl

theorem result_update_start (message : Octets) :
    result (hash.update hash.start message) = digest message := by
  rw [result, digest, hash.finish_update_start]

end SigV4.Digest.Sha256
