import SigV4.Text.Octets

/-!
Request targets.

A target has one of three forms: a path with an optional query (also the single asterisk), a
bare authority, or all of scheme, authority, path and query. The text of each part is kept as
it was written, so a target is written back without loss; a fragment is no part of it.
-/

namespace SigV4.Http

structure Scheme where
  text : String
  deriving DecidableEq, Repr

namespace Scheme

def http : Scheme := ⟨"http"⟩
def https : Scheme := ⟨"https"⟩

end Scheme

/-- User information, host and port, as written. -/
structure Authority where
  text : String
  deriving DecidableEq, Repr

namespace Authority

/-- What follows the last occurrence of a character, or everything. -/
def afterLast (c : Char) (cs : List Char) : List Char :=
  (cs.reverse.takeWhile (· != c)).reverse

/-- Host and port, without user information. -/
def hostPort (a : Authority) : List Char := afterLast '@' a.text.toList

/-- The host. An address in brackets keeps them; any other host ends at the first colon. -/
def host (a : Authority) : String :=
  match a.hostPort with
  | '[' :: rest => String.ofList ('[' :: (rest.takeWhile (· != ']') ++ [']']))
  | cs => String.ofList (cs.takeWhile (· != ':'))

/-- The value of a run of decimal digits, or nothing if another character is met. -/
def number? (cs : List Char) : Option Nat :=
  cs.foldl (fun n c => if c.isDigit then n.map (10 * · + (c.toNat - 48)) else none) (some 0)

/-- The number after the last colon. A plus sign may precede it; it must fit in sixteen bits. -/
def port? (a : Authority) : Option Nat :=
  let cs := a.text.toList
  if cs.contains ':' then
    let ds := match afterLast ':' cs with
      | '+' :: ds => ds
      | ds => ds
    if ds.isEmpty then none else (number? ds).filter (· < 65536)
  else none

end Authority

/-- A path and a query, as written. -/
structure PathAndQuery where
  path : String
  query : Option String
  deriving DecidableEq, Repr

namespace PathAndQuery

/-- The path, a slash if nothing is written for it. -/
def pathOrSlash (p : PathAndQuery) : String := if p.path = "" then "/" else p.path

/-- The written form, with the question mark before a query. -/
def text (p : PathAndQuery) : String :=
  match p.query with
  | none => p.pathOrSlash
  | some q => p.pathOrSlash ++ "?" ++ q

end PathAndQuery

/-- A request target. -/
inductive Uri where
  | origin (target : PathAndQuery)
  | authority (authority : Authority)
  | absolute (scheme : Scheme) (authority : Authority) (target : PathAndQuery)
  deriving DecidableEq, Repr

namespace Uri

def scheme? : Uri → Option Scheme
  | absolute s _ _ => some s
  | _ => none

def authority? : Uri → Option Authority
  | origin _ => none
  | authority a => some a
  | absolute _ a _ => some a

/-- Path and query, if the target has any. -/
def target? : Uri → Option PathAndQuery
  | origin p => if p.path = "" ∧ p.query = none then none else some p
  | authority _ => none
  | absolute _ _ p => some p

/-- The path, empty for a target that has none. -/
def path (u : Uri) : String := (u.target?.map PathAndQuery.pathOrSlash).getD ""

/-- The query without its question mark. -/
def query? (u : Uri) : Option String := u.target?.bind PathAndQuery.query

/-- The written form. -/
def text (u : Uri) : String :=
  let start := match u with
    | origin _ => ""
    | authority a => a.text
    | absolute s a _ => s.text ++ "://" ++ a.text
  start ++ (u.target?.map PathAndQuery.text).getD ""

/-- Why a text is no target, or parts do not make one. -/
inductive Fault where
  | illegalCharacter
  | badScheme
  | badAuthority
  | badFormat
  | schemeMissing
  | authorityMissing
  | pathMissing
  | tooLong
  | emptyText
  | schemeTooLong
  | noSlash
  deriving DecidableEq, Repr

/-- What is reported of a fault. -/
def Fault.message : Fault → String
  | illegalCharacter => "invalid uri character"
  | badScheme => "invalid scheme"
  | badAuthority => "invalid authority"
  | badFormat => "invalid format"
  | schemeMissing => "scheme missing"
  | authorityMissing => "authority missing"
  | pathMissing => "path missing"
  | tooLong => "uri too long"
  | emptyText => "empty string"
  | schemeTooLong => "scheme too long"
  | noSlash => "path does not start with slash"

/-- A scheme needs an authority and a path; an authority with a path needs a scheme. -/
def ofParts (s : Option Scheme) (a : Option Authority) (p : Option PathAndQuery) :
    Except Fault Uri :=
  match s, a, p with
  | some _, none, _ => .error .authorityMissing
  | some _, some _, none => .error .pathMissing
  | some s, some a, some p => .ok (.absolute s a p)
  | none, some _, some _ => .error .schemeMissing
  | none, some a, none => .ok (.authority a)
  | none, none, some p => .ok (.origin p)
  | none, none, none => .ok (.origin ⟨"", none⟩)

end Uri

end SigV4.Http
