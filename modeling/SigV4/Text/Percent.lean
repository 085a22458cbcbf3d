import SigV4.Text.Hex

/-!
Percent coding.

An octet outside the kept set is written as `%` and two upper-case digits. Reading takes
digits of either case and leaves a `%` that no two digits follow as it stands, so every octet
sequence can be read.
-/

namespace SigV4.Percent

/-- The octets that never need an escape: letters, digits and `-._~`. -/
def unreserved (b : UInt8) : Bool :=
  let c := Char.ofUInt8 b
  c.isAlphanum || c == '-' || c == '.' || c == '_' || c == '~'

/-- The unreserved octets and the slash, which separates the segments of a path. -/
def unreservedOrSlash (b : UInt8) : Bool := unreserved b || Char.ofUInt8 b == '/'

/-- An octet as it is written, itself if it is kept. -/
def escape (keep : UInt8 → Bool) (b : UInt8) : List Char :=
  if keep b then [Char.ofUInt8 b]
  else ['%', Hex.upperDigit (b.toNat / 16), Hex.upperDigit (b.toNat % 16)]

/-- The written form of an octet sequence. -/
def encodeOctets (keep : UInt8 → Bool) (bs : Octets) : List Char := bs.flatMap (escape keep)

/-- The written form of a text. -/
def encode (keep : UInt8 → Bool) (s : String) : String :=
  String.ofList (encodeOctets keep (utf8 s))

/-- Reads the escapes of an octet sequence; all else stands for itself. -/
def decode : Octets → Octets
  | a :: h :: l :: rest =>
    match Char.ofUInt8 a == '%', Hex.digit? h, Hex.digit? l with
    | true, some x, some y => UInt8.ofNat (16 * x + y) :: decode rest
    | _, _, _ => a :: decode (h :: l :: rest)
  | bs => bs

end SigV4.Percent
