import Mathlib.Data.List.Nodup
import SigV4.Proofs.Canonical.Folding
import SigV4.Proofs.Canonical.Order
import SigV4.Proofs.Outcome

/-!
What the canonical headers depend on.

They fail for one cause only, a value that is signed and does not read as text, and otherwise
are the sorted lines of the signed names. So they are a function of the folded values under each
signed name: neither the order of different names, nor the blanks of a value beyond one between
words, nor anything under a name that is left out has a part in them.
-/

namespace SigV4.Canonical

open Http (HeaderName HeaderValue)

/-- The values under a name that enter the canonical form. -/
def signedValues (c : Config) (r : Request) (n : HeaderName) : List HeaderValue :=
  if c.isExcluded n.text then [] else r.headers.values n

/-- Values as they are written in a line, if they read as text. -/
def joined (vs : List HeaderValue) : String :=
  String.intercalate "," (vs.map fun v => fold (asciiText v.octets))

/-- The line of a name, if its values read as text. -/
def lineOf (r : Request) (n : HeaderName) : String × String :=
  (n.text, joined (r.headers.values n))

lemma readValue_eq (v : HeaderValue) :
    Request.readValue v =
      if v.isReadable = true then .ok (asciiText v.octets) else .error .headerValueUnreadable := by
  unfold Request.readValue HeaderValue.text? HeaderValue.isReadable
  by_cases h : v.octets.all Http.isVisibleOctet = true
  · rw [if_pos h, if_pos h]
  · rw [if_neg h, if_neg h]

lemma headerValue_eq (vs : List HeaderValue) :
    headerValue vs =
      if ∀ v ∈ vs, v.isReadable = true then .ok (joined vs) else .error .headerValueUnreadable := by
  have hfold : ∀ v : HeaderValue, (Request.readValue v).map fold =
      if v.isReadable = true then .ok (fold (asciiText v.octets))
      else .error .headerValueUnreadable := by
    intro v
    rw [readValue_eq]
    split <;> rfl
  rw [headerValue, Outcome.mapM_eq_ite hfold]
  split <;> rfl

lemma headers_eq (c : Config) (r : Request) :
    headers c r =
      if ∀ n ∈ signedNames c r, ∀ v ∈ r.headers.values n, v.isReadable = true then
        .ok (((signedNames c r).map (lineOf r)).mergeSort pairLE)
      else .error .headerValueUnreadable := by
  have hline : ∀ n : HeaderName, headerLine r n =
      if ∀ v ∈ r.headers.values n, v.isReadable = true then .ok (lineOf r n)
      else .error .headerValueUnreadable := by
    intro n
    rw [headerLine, headerValue_eq]
    split <;> rfl
  rw [headers, Outcome.mapM_eq_ite hline]
  split <;> rfl

lemma mem_signedNames {c : Config} {r : Request} {n : HeaderName} :
    n ∈ signedNames c r ↔ signedValues c r n ≠ [] := by
  rw [signedNames, List.mem_filter, Http.Headers.mem_names, signedValues]
  cases c.isExcluded n.text <;> simp

lemma values_of_mem_signedNames {c : Config} {r : Request} {n : HeaderName}
    (h : n ∈ signedNames c r) : r.headers.values n = signedValues c r n := by
  rw [signedNames, List.mem_filter] at h
  have hn : c.isExcluded n.text = false := by simpa using h.2
  rw [signedValues, hn]
  rfl

lemma joined_eq (vs : List HeaderValue) :
    joined vs = String.intercalate "," ((folds vs).map asciiText) := by
  rw [joined, folds, List.map_map]
  exact congrArg _ (List.map_congr_left fun v _ => fold_asciiText v.octets)

lemma forall_isReadable_iff (vs : List HeaderValue) :
    (∀ v ∈ vs, v.isReadable = true) ↔ ∀ bs ∈ folds vs, bs.all Http.isVisibleOctet = true := by
  rw [folds, List.forall_mem_map]
  exact forall₂_congr fun v _ => by rw [isReadable_eq]

/-- The folded values under a name that enter the canonical form. -/
def signedFolds (c : Config) (r : Request) (n : HeaderName) : List Octets :=
  folds (signedValues c r n)

lemma mem_signedNames_iff_signedFolds {c : Config} {r : Request} {n : HeaderName} :
    n ∈ signedNames c r ↔ signedFolds c r n ≠ [] := by
  rw [mem_signedNames, signedFolds, folds, ne_eq, ne_eq, List.map_eq_nil_iff]

/-- **The canonical headers are a function of the folded signed values.** -/
lemma headers_congr_folds {c d : Config} {r s : Request}
    (h : ∀ n, signedFolds c r n = signedFolds d s n) : headers c r = headers d s := by
  have hmem : ∀ n, n ∈ signedNames c r ↔ n ∈ signedNames d s := by
    intro n
    rw [mem_signedNames_iff_signedFolds, mem_signedNames_iff_signedFolds, h n]
  have hfolds : ∀ n ∈ signedNames c r, folds (r.headers.values n) = folds (s.headers.values n) := by
    intro n hn
    rw [values_of_mem_signedNames hn, values_of_mem_signedNames ((hmem n).1 hn)]
    exact h n
  have hperm : (signedNames c r).Perm (signedNames d s) :=
    (List.perm_ext_iff_of_nodup ((Http.Headers.nodup_names _).filter _)
      ((Http.Headers.nodup_names _).filter _)).2 hmem
  have hlines : (signedNames c r).map (lineOf r) = (signedNames c r).map (lineOf s) :=
    List.map_congr_left fun n hn => by rw [lineOf, lineOf, joined_eq, joined_eq, hfolds n hn]
  have hread : (∀ n ∈ signedNames c r, ∀ v ∈ r.headers.values n, v.isReadable = true) ↔
      ∀ n ∈ signedNames d s, ∀ v ∈ s.headers.values n, v.isReadable = true := by
    constructor
    · intro hr n hn
      have hn' := (hmem n).2 hn
      rw [forall_isReadable_iff, ← hfolds n hn', ← forall_isReadable_iff]
      exact hr n hn'
    · intro hs n hn
      rw [forall_isReadable_iff, hfolds n hn, ← forall_isReadable_iff]
      exact hs n ((hmem n).1 hn)
  rw [headers_eq, headers_eq]
  by_cases hr : ∀ n ∈ signedNames c r, ∀ v ∈ r.headers.values n, v.isReadable = true
  · rw [if_pos hr, if_pos (hread.1 hr), hlines, sort_eq_sort_iff.2 (hperm.map (lineOf s))]
  · rw [if_neg hr, if_neg fun hs => hr (hread.2 hs)]

lemma mem_headers_fst {c : Config} {r : Request} {lines : List (String × String)}
    (h : headers c r = .ok lines) (n : HeaderName) :
    n.text ∈ lines.map Prod.fst ↔ n ∈ signedNames c r := by
  rw [headers_eq] at h
  split at h
  · cases h
    rw [((List.mergeSort_perm _ pairLE).map Prod.fst).mem_iff, List.map_map, List.mem_map]
    constructor
    · rintro ⟨m, hm, htext⟩
      exact HeaderName.ext_text htext ▸ hm
    · intro hn
      exact ⟨n, hn, rfl⟩
  · cases h

lemma pairwise_headers_fst {c : Config} {r : Request} {lines : List (String × String)}
    (h : headers c r = .ok lines) : (lines.map Prod.fst).Pairwise (· < ·) := by
  rw [headers_eq] at h
  split at h
  · cases h
    have hnames : ((signedNames c r).map HeaderName.text).Nodup :=
      List.Nodup.map (fun _ _ => HeaderName.ext_text) ((Http.Headers.nodup_names _).filter _)
    have hnodup : ((((signedNames c r).map (lineOf r)).mergeSort pairLE).map Prod.fst).Nodup := by
      rw [((List.mergeSort_perm _ pairLE).map Prod.fst).nodup_iff, List.map_map]
      exact hnames
    have hsorted : ((((signedNames c r).map (lineOf r)).mergeSort pairLE).map Prod.fst).Pairwise
        (· ≤ ·) := List.pairwise_map.2 ((pairwise_sort _).imp pairLE_fst)
    exact hsorted.imp₂ (fun _ _ => lt_of_le_of_ne) hnodup
  · cases h

lemma lineOf_mem_headers {c : Config} {r : Request} {lines : List (String × String)}
    (h : headers c r = .ok lines) {n : HeaderName} (hn : n ∈ signedNames c r) :
    lineOf r n ∈ lines ∧ ∀ v ∈ r.headers.values n, v.isReadable = true := by
  rw [headers_eq] at h
  split at h
  · next hr =>
    cases h
    exact ⟨List.mem_mergeSort.2 (List.mem_map_of_mem hn), hr n hn⟩
  · cases h

lemma mem_headers {c : Config} {r : Request} {lines : List (String × String)}
    (h : headers c r = .ok lines) {line : String × String} (hline : line ∈ lines) :
    ∃ n ∈ signedNames c r, line = lineOf r n ∧
      ∀ v ∈ r.headers.values n, v.isReadable = true := by
  rw [headers_eq] at h
  split at h
  · next hr =>
    cases h
    rw [List.mem_mergeSort, List.mem_map] at hline
    obtain ⟨n, hn, rfl⟩ := hline
    exact ⟨n, hn, rfl, hr n hn⟩
  · cases h

end SigV4.Canonical
