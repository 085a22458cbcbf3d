import SigV4.Canonical.Headers
import SigV4.Proofs.Http.Headers
import SigV4.Proofs.Text.Joined

/-!
Folding header values as they are sent.

A value is octets, and folding it as such needs no text. The blanks that a value may hold read as
text, and folding keeps every other octet, so the folded octets tell whether the value reads as
text, and what that text folds to. Nothing else of a value enters the canonical form.
-/

namespace SigV4.Canonical

open Http (HeaderValue)

/-- An octet that separates the words of a value. -/
def isBlankOctet (b : UInt8) : Bool := Ascii.isBlank (Char.ofUInt8 b)

/-- Octets with one space between their words and no blank around them. -/
def foldOctets (bs : Octets) : Octets :=
  [0x20].intercalate ((bs.splitOnP isBlankOctet).filter fun word => !word.isEmpty)

/-- The values of a name, each folded. -/
def folds (vs : List HeaderValue) : List Octets := vs.map fun v => foldOctets v.octets

lemma mem_fold {s : String} {c : Char} (h : c ∈ (fold s).toList) : c = ' ' ∨ c ∈ s.toList := by
  rw [fold, String.toList_ofList] at h
  rcases Joined.mem_intercalate h with h | ⟨word, hword, hc⟩
  · exact .inl (List.mem_singleton.1 h)
  · exact .inr (Joined.mem_of_mem_splitOnP (List.mem_of_mem_filter hword) hc)

lemma fold_asciiText (bs : Octets) : fold (asciiText bs) = asciiText (foldOctets bs) := by
  have hwords : words (bs.map Char.ofUInt8) =
      ((bs.splitOnP isBlankOctet).filter fun word => !word.isEmpty).map
        (List.map Char.ofUInt8) := by
    rw [words, Joined.splitOnP_map, List.filter_map]
    congr 1
    exact List.filter_congr fun word _ => by simp
  rw [fold, asciiText, asciiText, String.toList_ofList, hwords, foldOctets,
    Joined.map_intercalate]
  rfl

lemma isVisibleOctet_of_isBlankOctet {b : UInt8} (hblank : isBlankOctet b = true)
    (hvalue : Http.isValueOctet b = true) : Http.isVisibleOctet b = true := by
  have hnat : ∀ {c : Char}, Char.ofUInt8 b = c → b.toNat = c.toNat := by
    rintro _ rfl
    exact (UInt8.toNat_toUInt32 b).symm
  have hcode : b.toNat = 32 ∨ b.toNat = 9 ∨ b.toNat = 10 ∨ b.toNat = 12 ∨ b.toNat = 13 := by
    simp only [isBlankOctet, Ascii.isBlank, Bool.or_eq_true, beq_iff_eq] at hblank
    rcases hblank with (((h | h) | h) | h) | h
    · exact .inl (hnat h)
    · exact .inr (.inl (hnat h))
    · exact .inr (.inr (.inl (hnat h)))
    · exact .inr (.inr (.inr (.inl (hnat h))))
    · exact .inr (.inr (.inr (.inr (hnat h))))
  simp only [Http.isValueOctet, Http.isVisibleOctet, Bool.or_eq_true, Bool.and_eq_true,
    decide_eq_true_eq, bne_iff_ne, beq_iff_eq] at hvalue ⊢
  omega

/-- **Folding neither hides nor makes an octet that reads as no text.** -/
lemma isReadable_eq (v : HeaderValue) :
    v.isReadable = (foldOctets v.octets).all Http.isVisibleOctet := by
  rw [Bool.eq_iff_iff, HeaderValue.isReadable, List.all_eq_true, List.all_eq_true]
  constructor
  · intro h b hb
    rcases Joined.mem_intercalate hb with hb | ⟨word, hword, hb⟩
    · rw [List.mem_singleton.1 hb]
      decide
    · exact h b (Joined.mem_of_mem_splitOnP (List.mem_of_mem_filter hword) hb)
  · intro h b hb
    cases hblank : isBlankOctet b with
    | true =>
      exact isVisibleOctet_of_isBlankOctet hblank (List.all_eq_true.1 v.isValue b hb)
    | false =>
      obtain ⟨word, hword, hmem⟩ := Joined.exists_mem_splitOnP hb hblank
      have hne : word ≠ [] := List.ne_nil_of_mem hmem
      have hkept : word ∈ (v.octets.splitOnP isBlankOctet).filter fun word => !word.isEmpty :=
        List.mem_filter.2 ⟨hword, by simpa using hne⟩
      exact h b (Joined.mem_intercalate_of_mem hkept hmem)

end SigV4.Canonical
