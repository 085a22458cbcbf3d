import SigV4.Http.Uri
import SigV4.Text.Ascii
import SigV4.Text.Utf8

/-!
Reading request targets from octets.

The reader decides by the first octet whether it has a path or an authority, possibly after a
scheme. Paths and queries may hold any character beyond ASCII, but not every mark; a fragment
is cut off unread.
-/

namespace SigV4.Http

/-- The most octets a target may have. -/
def maxTargetLength : Nat := 65534

/-- The most octets a scheme may have. -/
def maxSchemeLength : Nat := 64

/-- The octet is that ASCII character. -/
def isMark (c : Char) (b : UInt8) : Bool := Char.ofUInt8 b == c

namespace Scheme

/-- Letters, digits, plus, minus, point and tilde. -/
def isSchemeOctet (b : UInt8) : Bool :=
  let c := Char.ofUInt8 b
  c.isAlphanum || c == '+' || c == '-' || c == '.' || c == '~'

/-- Reads a scheme that stands alone. -/
def parse (bs : Octets) : Except Uri.Fault Scheme :=
  if bs.length > maxSchemeLength then .error .schemeTooLong
  else if bs.all isSchemeOctet then .ok ⟨asciiText bs⟩
  else .error .badScheme

/-- What comes between a scheme and an authority. -/
def mark : Octets := utf8 "://"

/-- Splits off a scheme and the mark after it, if the octets begin with them. The two schemes
of the web are known in any letter case. -/
def split (bs : Octets) : Except Uri.Fault (Option Scheme × Octets) :=
  if Ascii.lower (asciiText (bs.take 7)) = "http://" then .ok (some http, bs.drop 7)
  else if Ascii.lower (asciiText (bs.take 8)) = "https://" then .ok (some https, bs.drop 8)
  else
    let name := bs.takeWhile isSchemeOctet
    let rest := bs.dropWhile isSchemeOctet
    if rest.take 3 ≠ mark ∨ bs.length ≤ 3 then .ok (none, bs)
    else if name.length > maxSchemeLength then .error .schemeTooLong
    else .ok (some ⟨asciiText name⟩, rest.drop 3)

end Scheme

namespace Authority

/-- What has been seen of an authority. An at-sign or a closing bracket shows that colons and
escapes before it belong to the user or the address, so they are forgotten. -/
structure Seen where
  colons : Nat
  opened : Bool
  closed : Bool
  escape : Bool
  endsInAt : Bool

def unseen : Seen := ⟨0, false, false, false, false⟩

/-- An octet that ends an authority. -/
def isEnd (b : UInt8) : Bool := isMark '/' b || isMark '?' b || isMark '#' b

/-- A character that may stand in an authority besides colons, brackets, at-signs and
escapes. -/
def isPlain (c : Char) : Bool := c.isAlphanum || "!$&\x27()*+,-.;=_~".toList.contains c

/-- No address is written with more colons. -/
def maxColons : Nat := 8

/-- One more octet. -/
def Seen.step (s : Seen) (b : UInt8) : Except Uri.Fault Seen :=
  let s := { s with endsInAt := false }
  match Char.ofUInt8 b with
  | ':' =>
    if s.colons ≥ maxColons then .error .badAuthority else .ok { s with colons := s.colons + 1 }
  | '[' => if s.escape || s.opened then .error .badAuthority else .ok { s with opened := true }
  | ']' =>
    if !s.opened || s.closed then .error .badAuthority
    else .ok { s with closed := true, colons := 0, escape := false }
  | '@' => .ok { s with colons := 0, escape := false, endsInAt := true }
  | '%' => .ok { s with escape := true }
  | c => if isPlain c then .ok s else .error .illegalCharacter

/-- Brackets match, one colon at most is left for the port, a host follows the user, and no
escape is left in the host. -/
def Seen.isComplete (s : Seen) : Bool :=
  s.opened == s.closed && s.colons ≤ 1 && !s.endsInAt && !s.escape

/-- Splits off an authority. It may be an empty one, but only before something else. -/
def split (bs : Octets) : Except Uri.Fault (Octets × Octets) :=
  if bs.isEmpty then .error .emptyText
  else do
    let name := bs.takeWhile fun b => !isEnd b
    let seen ← name.foldlM Seen.step unseen
    if seen.isComplete then .ok (name, bs.dropWhile fun b => !isEnd b) else .error .badAuthority

/-- Reads an authority that stands alone. -/
def parse (bs : Octets) : Except Uri.Fault Authority := do
  let (name, rest) ← split bs
  if rest.isEmpty then .ok ⟨asciiText name⟩ else .error .illegalCharacter

end Authority

namespace PathAndQuery

/-- An octet of a visible ASCII character, or of a character beyond ASCII. -/
def isGraphic (b : UInt8) : Bool := (0x21 ≤ b.toNat && b.toNat ≤ 0x7E) || 0x80 ≤ b.toNat

/-- An octet that may stand in a path. -/
def isPathOctet (b : UInt8) : Bool :=
  isGraphic b && !"#<>?\x60".toList.contains (Char.ofUInt8 b)

/-- An octet that may stand in a query. -/
def isQueryOctet (b : UInt8) : Bool :=
  isGraphic b && !"\"#<>".toList.contains (Char.ofUInt8 b)

/-- The text of octets that are all allowed and form characters. -/
def legalText (legal : UInt8 → Bool) (bs : Octets) : Except Uri.Fault String :=
  if bs.all legal then (Utf8.decode bs).mapError fun _ => .illegalCharacter
  else .error .illegalCharacter

/-- Reads path and query, up to a number sign. -/
def scan (bs : Octets) : Except Uri.Fault PathAndQuery := do
  let bs := bs.takeWhile fun b => !isMark '#' b
  let path ← legalText isPathOctet (bs.takeWhile fun b => !isMark '?' b)
  match bs.dropWhile fun b => !isMark '?' b with
  | [] => .ok ⟨path, none⟩
  | _ :: q => do
    let query ← legalText isQueryOctet q
    .ok ⟨path, some query⟩

/-- A path begins with a slash, if it is written at all; the asterisk stands alone. -/
def beginsWell (bs : Octets) : Bool :=
  match bs with
  | [] => false
  | b :: rest =>
    isMark '/' b || isMark '?' b || isMark '#' b || (isMark '*' b && rest.isEmpty)

/-- Reads path and query that stand alone. -/
def parse (bs : Octets) : Except Uri.Fault PathAndQuery :=
  if bs.isEmpty then .error .emptyText
  else if bs.length > maxTargetLength then .error .tooLong
  else if beginsWell bs then scan bs
  else .error .noSlash

end PathAndQuery

namespace Uri

/-- Reads a target that does not begin with a slash: an authority alone, or a scheme, an
authority that is not empty, and the rest. -/
def parseFull (bs : Octets) : Except Fault Uri := do
  let (scheme, afterScheme) ← Scheme.split bs
  let (name, rest) ← Authority.split afterScheme
  match scheme with
  | none => if rest.isEmpty then .ok (.authority ⟨asciiText name⟩) else .error .badFormat
  | some s =>
    if name.isEmpty then .error .badFormat
    else do
      let target ← PathAndQuery.scan rest
      .ok (.absolute s ⟨asciiText name⟩ target)

/-- Reads a target. A single octet is a slash, an asterisk or an authority. -/
def parse (bs : Octets) : Except Fault Uri :=
  if bs.length > maxTargetLength then .error .tooLong
  else
    match bs with
    | [] => .error .emptyText
    | b :: rest =>
      if isMark '/' b then (PathAndQuery.scan bs).map .origin
      else if !rest.isEmpty then parseFull bs
      else if isMark '*' b then .ok (.origin ⟨"*", none⟩)
      else (Authority.parse bs).map .authority

end Uri

end SigV4.Http
