import SigV4.Canonical.Path
import SigV4.Proofs.Outcome
import SigV4.Proofs.Text.Percent

/-!
What the canonical path depends on.

The path is read, which can fail in one mode only, and then written, which cannot fail. Both
take the path alone from the request, and the rules on paths alone from the configuration.
-/

namespace SigV4.Canonical

/-- The path as it is before it is written: as it was sent, or with its escapes read. -/
def readPath (mode : PathEncoding) (r : Request) : Except Error String :=
  match mode with
  | .double => .ok r.path
  | .single => r.decodedPath

/-- The written form of a path. -/
def writePath (normalized : Bool) (s : String) : String :=
  if s = "" then "/"
  else
    Percent.encode Percent.unreservedOrSlash
      (if normalized then String.ofList (normalize s.toList) else s)

lemma path_eq (c : Config) (r : Request) :
    path c r = (readPath c.pathEncoding r).map (writePath c.normalizePath) := by
  have hwrite : ∀ s, (if s = "" then (pure "/" : Except Error String) else
      pure (Percent.encode Percent.unreservedOrSlash
        (if c.normalizePath then String.ofList (normalize s.toList) else s))) =
      .ok (writePath c.normalizePath s) := by
    intro s
    unfold writePath
    split <;> rfl
  unfold path readPath
  cases c.pathEncoding with
  | double => exact hwrite r.path
  | single =>
    cases r.decodedPath with
    | error e => rfl
    | ok s => exact hwrite s

lemma mem_writePath {normalized : Bool} {s : String} {c : Char}
    (h : c ∈ (writePath normalized s).toList) :
    c = '%' ∨ c = '/' ∨ Percent.isUnreservedChar c = true := by
  unfold writePath at h
  split at h
  · exact .inr (.inl (List.mem_singleton.1 h))
  · exact Percent.mem_encode_unreservedOrSlash h

lemma path_congr {c d : Config} {r s : Request} (hmode : c.pathEncoding = d.pathEncoding)
    (hnorm : c.normalizePath = d.normalizePath) (hpath : r.path = s.path) :
    path c r = path d s := by
  rw [path_eq, path_eq, hmode, hnorm]
  unfold readPath Request.decodedPath
  rw [hpath]

end SigV4.Canonical
