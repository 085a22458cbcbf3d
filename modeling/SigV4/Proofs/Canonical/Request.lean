import SigV4.Canonical.Request
import SigV4.Proofs.Canonical.Headers
import SigV4.Proofs.Canonical.Path

/-!
What the canonical form depends on.

It is a function of the method, the path, the pairs of the query that have a name, the folded
values under each signed name, and the rules on paths. Two sides that agree on these compute the
same form, or fail for the same cause.
-/

namespace SigV4.CanonicalRequest

variable {c d : Config} {r s : Request} {hash : String} {a : CanonicalRequest}

lemma ofRequest_eq_ok (h : ofRequest c r hash = .ok a) :
    Canonical.path c r = .ok a.path ∧ Canonical.headers c r = .ok a.headers ∧
      a.method = r.method.text ∧ a.query = Canonical.query r.query ∧ a.payloadHash = hash := by
  unfold ofRequest at h
  obtain ⟨path, hpath, h⟩ := Outcome.bind_eq_ok.1 h
  obtain ⟨headers, hheaders, h⟩ := Outcome.bind_eq_ok.1 h
  cases h
  exact ⟨hpath, hheaders, rfl, rfl, rfl⟩

/-- **The canonical form is a function of what is signed**, folded and in order. -/
lemma ofRequest_congr_folds (hmode : c.pathEncoding = d.pathEncoding)
    (hnorm : c.normalizePath = d.normalizePath) (hmethod : r.method = s.method)
    (hpath : r.path = s.path)
    (hquery : (Canonical.namedPairs r.query).Perm (Canonical.namedPairs s.query))
    (hfolds : ∀ n, Canonical.signedFolds c r n = Canonical.signedFolds d s n) :
    ofRequest c r hash = ofRequest d s hash := by
  rw [ofRequest, ofRequest, Canonical.path_congr hmode hnorm hpath,
    Canonical.headers_congr_folds hfolds, hmethod, Canonical.query_congr hquery]

lemma ofRequest_congr (hmode : c.pathEncoding = d.pathEncoding)
    (hnorm : c.normalizePath = d.normalizePath) (hmethod : r.method = s.method)
    (hpath : r.path = s.path) (hquery : r.query = s.query)
    (hvalues : ∀ n, Canonical.signedValues c r n = Canonical.signedValues d s n) :
    ofRequest c r hash = ofRequest d s hash :=
  ofRequest_congr_folds hmode hnorm hmethod hpath (hquery ▸ .refl _)
    fun n => congrArg Canonical.folds (hvalues n)

lemma exists_name_of_mem (h : ofRequest c r hash = .ok a) {name : String}
    (hname : name ∈ a.headers.map Prod.fst) : ∃ n : Http.HeaderName, n.text = name := by
  obtain ⟨line, hline, rfl⟩ := List.mem_map.1 hname
  obtain ⟨n, -, rfl, -⟩ := Canonical.mem_headers (ofRequest_eq_ok h).2.1 hline
  exact ⟨n, rfl⟩

lemma exists_ofRequest {p : String} (hpath : Canonical.path c r = .ok p)
    (hread : ∀ e ∈ r.headers.entries, e.2.isReadable = true) :
    ∃ a, ofRequest c r hash = .ok a := by
  have hvalues : ∀ n ∈ Canonical.signedNames c r, ∀ v ∈ r.headers.values n,
      v.isReadable = true := by
    intro n _ v hv
    obtain ⟨e, he, hev⟩ := List.mem_filterMap.1 hv
    split at hev
    · cases hev; exact hread e he
    · cases hev
  rw [ofRequest, hpath, Outcome.ok_bind, Canonical.headers_eq, if_pos hvalues]
  exact ⟨_, rfl⟩

end SigV4.CanonicalRequest
