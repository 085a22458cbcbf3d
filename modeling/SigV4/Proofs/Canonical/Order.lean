import Mathlib.Data.Prod.Lex
import Mathlib.Data.String.Basic
import SigV4.Canonical.Query

/-!
The order of canonical pairs.

Pairs are ordered as in a dictionary, name before value. The order is total, so a sorted list of
pairs says no more than which pairs there are and how often. A canonical query is such a list, of
the pairs that have a name.
-/

namespace SigV4.Canonical

lemma pairLE_iff (p q : String × String) : pairLE p q = true ↔ toLex p ≤ toLex q := by
  rw [Prod.Lex.le_iff]
  simp only [pairLE, Bool.or_eq_true, Bool.and_eq_true, decide_eq_true_eq]
  rfl

lemma pairLE_trans (p q r : String × String) (h₁ : pairLE p q) (h₂ : pairLE q r) :
    pairLE p r := by
  rw [pairLE_iff] at h₁ h₂ ⊢
  exact h₁.trans h₂

lemma pairLE_total (p q : String × String) : pairLE p q || pairLE q p := by
  rw [Bool.or_eq_true, pairLE_iff, pairLE_iff]
  exact le_total _ _

lemma pairLE_antisymm {p q : String × String} (h₁ : pairLE p q) (h₂ : pairLE q p) : p = q := by
  rw [pairLE_iff] at h₁ h₂
  exact toLex.injective (le_antisymm h₁ h₂)

lemma pairLE_fst {p q : String × String} (h : pairLE p q) : p.1 ≤ q.1 := by
  rw [pairLE_iff, Prod.Lex.toLex_le_toLex] at h
  rcases h with h | h
  · exact h.le
  · exact h.1.le

lemma pairwise_sort (ps : List (String × String)) : (ps.mergeSort pairLE).Pairwise (pairLE · ·) :=
  List.pairwise_mergeSort pairLE_trans pairLE_total ps

lemma sort_eq_sort_iff {ps qs : List (String × String)} :
    ps.mergeSort pairLE = qs.mergeSort pairLE ↔ ps.Perm qs := by
  constructor
  · intro h
    exact (List.mergeSort_perm ps pairLE).symm.trans (h ▸ List.mergeSort_perm qs pairLE)
  · intro h
    have hperm : (ps.mergeSort pairLE).Perm (qs.mergeSort pairLE) :=
      (List.mergeSort_perm _ _).trans (h.trans (List.mergeSort_perm _ _).symm)
    exact hperm.eq_of_pairwise (fun _ _ _ _ h₁ h₂ => pairLE_antisymm h₁ h₂)
      (pairwise_sort ps) (pairwise_sort qs)

/-- The pairs that have a name; an absent value is an empty one. -/
def namedPairs (ps : List QueryPair) : List (String × String) :=
  (ps.filter fun p => p.1 ≠ "").map fun p => (p.1, p.2.getD "")

lemma query_congr {ps qs : List QueryPair} (h : (namedPairs ps).Perm (namedPairs qs)) :
    query ps = query qs := by
  have hencoded : ∀ ps : List QueryPair, (ps.filter fun p => p.1 ≠ "").map encodePair =
      (namedPairs ps).map fun p =>
        (Percent.encode Percent.unreserved p.1, Percent.encode Percent.unreserved p.2) := by
    intro ps
    rw [namedPairs, List.map_map]
    rfl
  have hpairs : queryPairs ps = queryPairs qs := by
    rw [queryPairs, queryPairs, hencoded, hencoded]
    exact sort_eq_sort_iff.2 (h.map _)
  rw [query, query, hpairs]

end SigV4.Canonical
