import SigV4.Digest.Blocks

/-!
SHA-1: twenty octets. It guards payloads against damage, not against an opponent.
-/

namespace SigV4.Digest.Sha1

/-- The chained value, five words. -/
structure State where
  a : UInt32
  b : UInt32
  c : UInt32
  d : UInt32
  e : UInt32

def initial : State := ⟨0x67452301, 0xefcdab89, 0x98badcfe, 0x10325476, 0xc3d2e1f0⟩

/-- One more word of the schedule, from four earlier ones. -/
def nextWord (w : Array UInt32) : UInt32 :=
  let n := w.size
  rotateLeft (w.getD (n - 3) 0 ^^^ w.getD (n - 8) 0 ^^^ w.getD (n - 14) 0 ^^^ w.getD (n - 16) 0) 1

/-- The sixteen words of the block and sixty-four more. -/
def schedule (block : Array UInt8) : Array UInt32 :=
  let first := (List.range 16).foldl (fun w i => w.push (wordAt block i)) #[]
  (List.range 64).foldl (fun w _ => w.push (nextWord w)) first

/-- The mixing function and the constant change every twenty rounds. -/
def mix (i : Nat) (b c d : UInt32) : UInt32 :=
  if i < 20 then ((b &&& c) ||| (b.complement &&& d)) + 0x5a827999
  else if i < 40 then (b ^^^ c ^^^ d) + 0x6ed9eba1
  else if i < 60 then ((b &&& c) ||| (b &&& d) ||| (c &&& d)) + 0x8f1bbcdc
  else (b ^^^ c ^^^ d) + 0xca62c1d6

def round (s : State) (i : Nat) (w : UInt32) : State :=
  ⟨rotateLeft s.a 5 + mix i s.b s.c s.d + s.e + w, s.a, rotateLeft s.b 30, s.c, s.d⟩

def add (s t : State) : State := ⟨s.a + t.a, s.b + t.b, s.c + t.c, s.d + t.d, s.e + t.e⟩

def compress (s : State) (block : Array UInt8) : State :=
  let w := schedule block
  add s ((List.range 80).foldl (fun t i => round t i (w.getD i 0)) s)

def hash : BlockHash State := ⟨initial, compress⟩

/-- The chained value as octets. -/
def State.octets (s : State) : Octets :=
  wordOctets s.a ++ wordOctets s.b ++ wordOctets s.c ++ wordOctets s.d ++ wordOctets s.e

/-- The digest of a message. -/
def digest (message : Octets) : Octets := (hash.value message).octets

/-- The digest of what a running hash has seen. -/
def result (r : Running State) : Octets := (hash.finish r).octets

theorem result_update_start (message : Octets) :
    result (hash.update hash.start message) = digest message := by
  rw [result, digest, hash.finish_update_start]

end SigV4.Digest.Sha1
