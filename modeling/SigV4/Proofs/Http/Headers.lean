import Mathlib.Data.List.Basic
import Mathlib.Tactic.Lemma
import SigV4.Http.Header

/-!
What a message says by its headers: the list of values of each name.

Every operation is described by what it does to these lists. Two headers that give the same
list to each name have the same names, and each name stands once among them.
-/

namespace SigV4.Http

lemma HeaderName.not_mem_text (n : HeaderName) {c : Char} (hc : isNameChar c = false) :
    c ∉ n.text.toList := fun h => by
  have := List.all_eq_true.1 n.isName.2.2 c h
  rw [hc] at this
  cases this

lemma HeaderName.text_of_ofText? {s : String} {n : HeaderName} (h : ofText? s = some n) :
    n.text = Ascii.lower s := by
  unfold ofText? at h
  simp only at h
  split at h
  · cases h
    rfl
  · cases h

namespace HeaderValue

/-- Every octet of the value reads as text. -/
def isReadable (v : HeaderValue) : Bool := v.octets.all isVisibleOctet

@[simp] lemma octets_hide (v : HeaderValue) : v.hide.octets = v.octets := rfl

@[simp] lemma isReadable_hide (v : HeaderValue) : v.hide.isReadable = v.isReadable := rfl

lemma hide_eq_self_iff (v : HeaderValue) : v.hide = v ↔ v.sensitive = true := by
  cases v
  simp [hide, eq_comm]

lemma ofText?_eq_some {s : String} {v : HeaderValue} (h : ofText? s = some v) :
    v.octets = utf8 s ∧ v.sensitive = false := by
  unfold ofText? ofOctets? at h
  split at h
  · cases h; exact ⟨rfl, rfl⟩
  · cases h

end HeaderValue

namespace Headers

variable (hs : Headers) (m n : HeaderName) (v : HeaderValue)

@[simp] lemma values_insert_self : (hs.insert n v).values n = [v] := by simp [values_insert]

lemma values_insert_of_ne (h : m ≠ n) : (hs.insert m v).values n = hs.values n := by
  simp [values_insert, h]

@[simp] lemma values_append_self : (hs.append n v).values n = hs.values n ++ [v] := by
  simp [values_append]

lemma values_append_of_ne (h : m ≠ n) : (hs.append m v).values n = hs.values n := by
  simp [values_append, h]

@[simp] lemma values_erase_self : (hs.erase n).values n = [] := by simp [values_erase]

lemma values_erase_of_ne (h : m ≠ n) : (hs.erase m).values n = hs.values n := by
  simp [values_erase, h]

lemma contains_eq_false_iff : hs.contains n = false ↔ hs.values n = [] := by
  rw [← Bool.not_eq_true, contains_iff, not_not]

lemma contains_congr {hs ks : Headers} {n : HeaderName} (h : hs.values n = ks.values n) :
    hs.contains n = ks.contains n := by
  rw [Bool.eq_iff_iff, contains_iff, contains_iff, h]

lemma get?_congr {hs ks : Headers} {n : HeaderName} (h : hs.values n = ks.values n) :
    hs.get? n = ks.get? n := by
  rw [get?, get?, h]

lemma contains_insert_self : (hs.insert n v).contains n = true := by simp [contains_iff]

lemma mem_entries_insert {e : HeaderName × HeaderValue} (h : e ∈ (hs.insert n v).entries) :
    e ∈ hs.entries ∨ e = (n, v) := by
  rcases List.mem_append.1 h with h | h
  · exact .inl (List.mem_of_mem_filter h)
  · exact .inr (List.mem_singleton.1 h)

lemma mem_entries_of_mem_values {hs : Headers} {n : HeaderName} {v : HeaderValue}
    (h : v ∈ hs.values n) : (n, v) ∈ hs.entries := by
  obtain ⟨e, he, hv⟩ := List.mem_filterMap.1 h
  split at hv
  · next hn =>
    cases hv
    rwa [← hn]
  · cases hv

lemma nodup_eraseDups {α : Type} [BEq α] [LawfulBEq α] : ∀ as : List α, as.eraseDups.Nodup
  | [] => List.nodup_nil
  | a :: as => by
    have : (as.filter fun b => !b == a).length < as.length + 1 :=
      Nat.lt_succ_of_le (List.length_filter_le _ _)
    rw [List.eraseDups_cons, List.nodup_cons]
    refine ⟨fun h => ?_, nodup_eraseDups _⟩
    have hmem := List.mem_eraseDups.1 h
    simp at hmem
termination_by as => as.length

lemma nodup_names : hs.names.Nodup := nodup_eraseDups _

end Headers

end SigV4.Http
