import Mathlib
import SigV4.Proofs.Canonical.QueryOctets
import SigV4.Proofs.Text.Coded

/-!
What the canonical query says.

It says which pairs with a name there are and how often, and nothing else. Names and values are
coded, so that neither mark of the format stands in them, and the pairs stand in the order of their
octets, name before value: a name that begins another one comes first, though the text of its pair
need not.
-/

namespace SigV4.Canonical

open QueryOctets (ofTexts)

/-- Name and value of a pair, coded. -/
def encodeTexts (p : String × String) : String × String :=
  (Percent.encode Percent.unreserved p.1, Percent.encode Percent.unreserved p.2)

/-- A text that is written from coded pairs, one for each pair with a name, in the order of their
octets. -/
structure IsQueryOf (ps : List QueryPair) (coded : List (String × String)) (text : String) :
    Prop where
  joined : text = String.intercalate "&" (coded.map fun p => p.1 ++ "=" ++ p.2)
  alphabet : ∀ p ∈ coded, Percent.IsCoded Percent.isUnreservedChar p.1.toList ∧
    Percent.IsCoded Percent.isUnreservedChar p.2.toList
  ascending : coded.Pairwise fun p q =>
    utf8 p.1 < utf8 q.1 ∨ utf8 p.1 = utf8 q.1 ∧ utf8 p.2 ≤ utf8 q.2
  pairs : coded.Perm ((namedPairs ps).map encodeTexts)

lemma mem_queryPairs {ps : List QueryPair} {p : String × String} (h : p ∈ queryPairs ps) :
    ∃ q, p = encodeTexts q := by
  rw [queryPairs, List.mem_mergeSort, List.mem_map] at h
  obtain ⟨q, -, rfl⟩ := h
  exact ⟨(q.1, q.2.getD ""), rfl⟩

lemma queryPairs_perm (ps : List QueryPair) :
    (queryPairs ps).Perm ((namedPairs ps).map encodeTexts) := by
  rw [namedPairs, List.map_map]
  exact List.mergeSort_perm _ _

lemma pairwise_queryPairs (ps : List QueryPair) : (queryPairs ps).Pairwise fun p q =>
    utf8 p.1 < utf8 q.1 ∨ utf8 p.1 = utf8 q.1 ∧ utf8 p.2 ≤ utf8 q.2 := by
  have hsorted : (queryPairs ps).Pairwise (pairLE · ·) := pairwise_sort _
  have hascii : ∀ p ∈ queryPairs ps,
      (∀ c ∈ p.1.toList, c.toNat < 0x80) ∧ ∀ c ∈ p.2.toList, c.toNat < 0x80 := by
    intro p hp
    obtain ⟨q, rfl⟩ := mem_queryPairs hp
    exact ⟨fun _ => QueryOctets.encode_ascii, fun _ => QueryOctets.encode_ascii⟩
  refine hsorted.imp_of_mem fun {p q} hp hq hle => ?_
  rw [QueryOctets.pairLE_eq_le (hascii p hp) (hascii q hq), QueryOctets.le_iff] at hle
  exact hle

lemma isQueryOf_query (ps : List QueryPair) : IsQueryOf ps (queryPairs ps) (query ps) where
  joined := rfl
  alphabet p hp := by
    obtain ⟨q, rfl⟩ := mem_queryPairs hp
    exact ⟨Percent.isCoded_encode _, Percent.isCoded_encode _⟩
  ascending := pairwise_queryPairs ps
  pairs := queryPairs_perm ps

lemma ofTexts_injective : Function.Injective ofTexts := fun _ _ h =>
  Prod.ext (Utf8.utf8_injective (congrArg Prod.fst h)) (Utf8.utf8_injective (congrArg Prod.snd h))

/-- **The pairs with a name can be told from the canonical query.** -/
lemma namedPairs_perm_of_query_eq {ps qs : List QueryPair} (h : query ps = query qs) :
    (namedPairs ps).Perm (namedPairs qs) := by
  have hoctets : ∀ ps : List QueryPair, (ps.filter fun p => p.1 ≠ "").map QueryOctets.ofPair =
      (namedPairs ps).map ofTexts := by
    intro ps
    rw [namedPairs, List.map_map]
    rfl
  have hnamed : ∀ ps : List QueryPair, ∀ p ∈ (namedPairs ps).map ofTexts, p.1 ≠ [] := by
    intro ps p hp
    rw [namedPairs, List.map_map, List.mem_map] at hp
    obtain ⟨q, hq, rfl⟩ := hp
    have hname : q.1 ≠ "" := by simpa using (List.mem_filter.1 hq).2
    exact fun hnil => hname (utf8_eq_nil.1 hnil)
  have hwritten := congrArg utf8 h
  rw [QueryOctets.utf8_query, QueryOctets.utf8_query, hoctets, hoctets] at hwritten
  exact (List.map_perm_map_iff ofTexts_injective).1
    (QueryOctets.perm_of_written_eq (hnamed ps) (hnamed qs) hwritten)

/-- **The canonical query says which pairs there are**: two lists of pairs have one canonical query
exactly if they have the same pairs with a name, each as often, in any order and with an absent
value read as an empty one. It is written from these pairs, coded, in the order of their octets. -/
theorem query_eq_query_iff (ps qs : List QueryPair) :
    (query ps = query qs ↔ (namedPairs ps).Perm (namedPairs qs)) ∧
      IsQueryOf ps (queryPairs ps) (query ps) :=
  ⟨⟨namedPairs_perm_of_query_eq, query_congr⟩, isQueryOf_query ps⟩

/-- The pair `a-=` is a smaller text than `a=`, but its name is greater. -/
example : query [("a-", none), ("a", some "\u00e9"), ("", some "x"), ("a", none)] =
    "a=&a=%C3%A9&a-=" := by cbv

end SigV4.Canonical
