import SigV4.Text.Octets

/-!
Reading UTF-8, one octet at a time.

The reader cuts any octet sequence into characters and faults. A fault is the longest start of
a well-formed character that the next octet, or the end, does not continue; the octet that
does not continue it is read again as a start. The strict reading fails at the first fault and
says where; the lossy reading puts U+FFFD in place of each.
-/

namespace SigV4.Utf8

/-- A piece of an octet sequence: a character, or octets that belong to none. -/
inductive Piece where
  | char (c : Char)
  | bad (length : Nat)
  | cut (length : Nat)
  deriving DecidableEq, Repr

/-- A character that has begun: octets still owed, bounds of the next one, bits and octets seen. -/
structure Begun where
  owed : Nat
  low : Nat
  high : Nat
  bits : Nat
  taken : Nat

/-- What the first octet of a character promises, if it can be one. -/
def start (b : UInt8) : Piece ⊕ Begun :=
  let n := b.toNat
  if n < 0x80 then .inl (.char (Char.ofNat n))
  else if 0xC2 ≤ n ∧ n ≤ 0xDF then .inr ⟨1, 0x80, 0xBF, n % 32, 1⟩
  else if n = 0xE0 then .inr ⟨2, 0xA0, 0xBF, 0, 1⟩
  else if n = 0xED then .inr ⟨2, 0x80, 0x9F, 13, 1⟩
  else if 0xE1 ≤ n ∧ n ≤ 0xEF then .inr ⟨2, 0x80, 0xBF, n % 16, 1⟩
  else if n = 0xF0 then .inr ⟨3, 0x90, 0xBF, 0, 1⟩
  else if 0xF1 ≤ n ∧ n ≤ 0xF3 then .inr ⟨3, 0x80, 0xBF, n % 8, 1⟩
  else if n = 0xF4 then .inr ⟨3, 0x80, 0x8F, 4, 1⟩
  else .inl (.bad 1)

/-- Begins a character and writes what is complete. -/
def fresh (b : UInt8) : Option Begun × List Piece :=
  match start b with
  | .inl piece => (none, [piece])
  | .inr p => (some p, [])

/-- One octet, in the middle of a character or between two. -/
def step (state : Option Begun) (b : UInt8) : Option Begun × List Piece :=
  match state with
  | none => fresh b
  | some p =>
    if p.low ≤ b.toNat ∧ b.toNat ≤ p.high then
      let bits := p.bits * 64 + b.toNat % 64
      if p.owed = 1 then (none, [.char (Char.ofNat bits)])
      else (some ⟨p.owed - 1, 0x80, 0xBF, bits, p.taken + 1⟩, [])
    else
      let next := fresh b
      (next.1, .bad p.taken :: next.2)

/-- The pieces of the rest of a sequence. -/
def pieces (state : Option Begun) : Octets → List Piece
  | [] => match state with
    | none => []
    | some p => [.cut p.taken]
  | b :: bs => (step state b).2 ++ pieces (step state b).1 bs

/-- Why octets are not a text: a fault and the number of octets before it. -/
structure Fault where
  /-- The length of the offending octets, or nothing if the sequence ends too early. -/
  length : Option Nat
  /-- The number of well-formed octets before them. -/
  offset : Nat
  deriving DecidableEq, Repr

/-- What is reported of a fault. -/
def Fault.message (f : Fault) : String :=
  match f.length with
  | some n => s!"invalid utf-8 sequence of {n} bytes from index {f.offset}"
  | none => s!"incomplete utf-8 byte sequence from index {f.offset}"

/-- The characters before the first fault, or the fault; `offset` counts the octets so far. -/
def characters (offset : Nat) : List Piece → Except Fault (List Char)
  | [] => .ok []
  | .char c :: rest => (characters (offset + c.utf8Size) rest).map (c :: ·)
  | .bad n :: _ => .error ⟨some n, offset⟩
  | .cut _ :: _ => .error ⟨none, offset⟩

/-- The strict reading. -/
def decode (bs : Octets) : Except Fault String :=
  (characters 0 (pieces none bs)).map String.ofList

/-- The lossy reading of one piece. -/
def Piece.replaced : Piece → Char
  | .char c => c
  | .bad _ | .cut _ => '\ufffd'

/-- The lossy reading, which never fails. -/
def decodeLossy (bs : Octets) : String :=
  String.ofList ((pieces none bs).map Piece.replaced)

end SigV4.Utf8
