import SigV4.Proofs.Canonical.Request
import SigV4.Proofs.Request.SameBut

/-!
Requests that resemble each other.

They have the same headers, but only the values that are signed have to agree, and these only when
folded; the pairs of their queries may come in another order. Two headers are read on the way to
a signature and agree octet by octet: the payload hash and the announced trailers. A header edited
alike on both sides agrees afterwards, whatever it was before.
-/

namespace SigV4.Request

open Canonical (folds foldOctets namedPairs)
open Http (HeaderName HeaderValue)
open Outcome (Alike)

/-- The headers whose values are looked at before the canonical form is taken. -/
def readNames : List HeaderName := [.contentHash, .trailer]

/-- The requests agree on what is signed under a configuration, but for the values of some header
names. -/
structure Resembles (c : Config) (loose : List HeaderName) (r s : Request) : Prop where
  method : s.method = r.method
  authority : s.authority = r.authority
  path : s.path = r.path
  payload : s.payload = r.payload
  query : (namedPairs r.query).Perm (namedPairs s.query)
  present : ∀ n, s.headers.contains n = r.headers.contains n
  folded : ∀ n ∉ loose, c.isExcluded n.text = false →
    folds (s.headers.values n) = folds (r.headers.values n)
  read : ∀ n ∈ readNames,
    (s.headers.values n).map HeaderValue.octets = (r.headers.values n).map HeaderValue.octets

lemma folds_congr {vs ws : List HeaderValue}
    (h : vs.map HeaderValue.octets = ws.map HeaderValue.octets) : folds vs = folds ws := by
  have hfolds : ∀ us : List HeaderValue, folds us = (us.map HeaderValue.octets).map foldOctets := by
    intro us
    rw [List.map_map]
    rfl
  rw [hfolds, hfolds, h]

lemma readValue_congr {v w : HeaderValue} (h : v.octets = w.octets) :
    readValue v = readValue w := by
  rw [readValue, readValue, HeaderValue.text?, HeaderValue.text?, h]

lemma getText_congr_octets {r s : Request} {n : HeaderName}
    (h : (s.headers.values n).map HeaderValue.octets =
      (r.headers.values n).map HeaderValue.octets) : s.getText n = r.getText n := by
  unfold getText Http.Headers.get?
  cases hr : r.headers.values n with
  | nil =>
    rw [hr] at h
    rw [List.map_eq_nil_iff.1 h]
  | cons v vs =>
    rw [hr] at h
    obtain ⟨w, ws, hs, hw, -⟩ := List.map_eq_cons_iff.1 h
    rw [hs, List.head?_cons, List.head?_cons]
    exact congrArg (Except.map some) (readValue_congr hw)

namespace Resembles

variable {c : Config} {loose loose' : List HeaderName} {r s r' s' : Request} {n : HeaderName}

lemma mono (h : Resembles c loose r s) (hsub : loose ⊆ loose') : Resembles c loose' r s :=
  { h with folded := fun n hn => h.folded n fun hmem => hn (hsub hmem) }

lemma step (h : Resembles c (n :: loose) r s) (hr : r.SameBut [n] r') (hs : s.SameBut [n] s')
    (hn : (s'.headers.values n).map HeaderValue.octets =
      (r'.headers.values n).map HeaderValue.octets) : Resembles c loose r' s' := by
  have hvalues : ∀ m, m ≠ n → r'.headers.values m = r.headers.values m ∧
      s'.headers.values m = s.headers.values m := fun m hm =>
    ⟨hr.values m (by simpa using hm), hs.values m (by simpa using hm)⟩
  refine
    { method := by rw [hr.method, hs.method, h.method]
      authority := by rw [hr.authority, hs.authority, h.authority]
      path := by rw [hr.path, hs.path, h.path]
      payload := by rw [hr.payload, hs.payload, h.payload]
      query := by rw [hr.query, hs.query]; exact h.query
      present := fun m => ?present
      folded := fun m hm hkept => ?folded
      read := fun m hm => ?read }
  case present =>
    by_cases hmn : m = n
    · have hnil : s'.headers.values n = [] ↔ r'.headers.values n = [] := by
        rw [← List.map_eq_nil_iff (f := HeaderValue.octets), hn, List.map_eq_nil_iff]
      rw [hmn, Bool.eq_iff_iff, Http.Headers.contains_iff, Http.Headers.contains_iff, ne_eq, ne_eq,
        hnil]
    · rw [Http.Headers.contains_congr (hvalues m hmn).1,
        Http.Headers.contains_congr (hvalues m hmn).2, h.present]
  case folded =>
    by_cases hmn : m = n
    · exact hmn ▸ folds_congr hn
    · rw [(hvalues m hmn).1, (hvalues m hmn).2]
      exact h.folded m (by simp [hmn, hm]) hkept
  case read =>
    by_cases hmn : m = n
    · exact hmn ▸ hn
    · rw [(hvalues m hmn).1, (hvalues m hmn).2]
      exact h.read m hm

lemma insert (h : Resembles c (n :: loose) r s) (v : HeaderValue) :
    Resembles c loose { r with headers := r.headers.insert n v }
      { s with headers := s.headers.insert n v } :=
  h.step (.insert_right r n v) (.insert_right s n v) (by simp)

lemma erase (h : Resembles c (n :: loose) r s) :
    Resembles c loose { r with headers := r.headers.erase n }
      { s with headers := s.headers.erase n } :=
  h.step (.erase_right r n) (.erase_right s n) (by simp)

lemma append (h : Resembles c loose r s) (hn : n ∈ readNames) (v : HeaderValue) :
    Resembles c loose { r with headers := r.headers.append n v }
      { s with headers := s.headers.append n v } :=
  (h.mono (List.subset_cons_self n loose)).step (.append_right r n v) (.append_right s n v)
    (by simp [h.read n hn])

lemma putText_alike (h : Resembles c (n :: loose) r s) (value : String) :
    Alike (Resembles c loose) (r.putText n value) (s.putText n value) :=
  alike_putText h.insert value

end Resembles

end SigV4.Request
