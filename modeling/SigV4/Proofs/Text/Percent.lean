import SigV4.Proofs.Text.Utf8
import SigV4.Text.Percent

/-!
Percent coded text: its alphabet, its octets, and how it is read.

Whatever is written, only percent signs, unreserved characters and the kept marks come out, so
no such text holds a separator of the format it is written into. All of these are ASCII, so the
text can be taken for its octets, and reading those gives back what was written.
-/

namespace SigV4.Percent

/-- Letters, digits and `-._~`. -/
def isUnreservedChar (c : Char) : Bool :=
  c.isAlphanum || c == '-' || c == '.' || c == '_' || c == '~'

lemma upperDigit_isUnreserved : ∀ n < 16, isUnreservedChar (Hex.upperDigit n) = true := by decide

lemma mem_encodeOctets {keep : UInt8 → Bool} {bs : Octets} {c : Char}
    (h : c ∈ encodeOctets keep bs) :
    c = '%' ∨ isUnreservedChar c = true ∨ ∃ b, keep b = true ∧ c = Char.ofUInt8 b := by
  rw [encodeOctets, List.mem_flatMap] at h
  obtain ⟨b, -, hc⟩ := h
  have hb : b.toNat < 256 := b.toNat_lt
  unfold escape at hc
  split at hc
  · next hkeep => exact .inr (.inr ⟨b, hkeep, List.mem_singleton.1 hc⟩)
  · simp only [List.mem_cons, List.not_mem_nil, or_false] at hc
    rcases hc with rfl | rfl | rfl
    · exact .inl rfl
    · exact .inr (.inl (upperDigit_isUnreserved _ (by omega)))
    · exact .inr (.inl (upperDigit_isUnreserved _ (by omega)))

lemma mem_encode_unreserved {s : String} {c : Char} (h : c ∈ (encode unreserved s).toList) :
    c = '%' ∨ isUnreservedChar c = true := by
  rw [encode, String.toList_ofList] at h
  rcases mem_encodeOctets h with h | h | ⟨b, hb, rfl⟩
  · exact .inl h
  · exact .inr h
  · exact .inr hb

lemma mem_encode_unreservedOrSlash {s : String} {c : Char}
    (h : c ∈ (encode unreservedOrSlash s).toList) :
    c = '%' ∨ c = '/' ∨ isUnreservedChar c = true := by
  rw [encode, String.toList_ofList] at h
  rcases mem_encodeOctets h with h | h | ⟨b, hb, rfl⟩
  · exact .inl h
  · exact .inr (.inr h)
  · rw [unreservedOrSlash, Bool.or_eq_true] at hb
    rcases hb with hb | hb
    · exact .inr (.inr hb)
    · exact .inr (.inl (by simpa using hb))

/-- The octet of an upper-case digit below sixteen. -/
def octetDigit (n : Nat) : UInt8 := UInt8.ofNat (if n < 10 then 48 + n else 55 + n)

/-- An octet as it is written, in octets. -/
def escapeOctets (keep : UInt8 → Bool) (b : UInt8) : Octets :=
  if keep b then [b] else [0x25, octetDigit (b.toNat / 16), octetDigit (b.toNat % 16)]

lemma utf8EncodeChar_upperDigit :
    ∀ n < 16, String.utf8EncodeChar (Hex.upperDigit n) = [octetDigit n] := by decide

lemma digit?_octetDigit : ∀ n < 16, Hex.digit? (octetDigit n) = some n := by decide

variable {keep : UInt8 → Bool}

lemma flatMap_escape (hkeep : ∀ b, keep b = true → b.toNat < 0x80) (b : UInt8) :
    (escape keep b).flatMap String.utf8EncodeChar = escapeOctets keep b := by
  have hb : b.toNat < 256 := b.toNat_lt
  unfold escape escapeOctets
  by_cases h : keep b = true
  · rw [if_pos h, if_pos h, List.flatMap_singleton, Utf8.utf8EncodeChar_ofUInt8 (hkeep b h)]
  · have hpercent : String.utf8EncodeChar '%' = [0x25] := rfl
    rw [if_neg h, if_neg h, List.flatMap_cons, List.flatMap_cons, List.flatMap_singleton,
      hpercent, utf8EncodeChar_upperDigit _ (by omega), utf8EncodeChar_upperDigit _ (by omega)]
    rfl

lemma utf8_encode (hkeep : ∀ b, keep b = true → b.toNat < 0x80) (s : String) :
    utf8 (encode keep s) = (utf8 s).flatMap (escapeOctets keep) := by
  rw [encode, utf8_ofList, encodeOctets, List.flatMap_assoc]
  congr 1
  funext b
  exact flatMap_escape hkeep b

lemma decode_cons_of_ne {a : UInt8} (h : (Char.ofUInt8 a == '%') = false) (bs : Octets) :
    decode (a :: bs) = a :: decode bs := by
  match bs with
  | [] => rfl
  | [_] => rfl
  | _ :: _ :: _ => simp [decode, h]

lemma decode_escapeOctets (hkeep : keep 0x25 = false) (b : UInt8) (bs : Octets) :
    decode (escapeOctets keep b ++ bs) = b :: decode bs := by
  have hb : b.toNat < 256 := b.toNat_lt
  unfold escapeOctets
  by_cases h : keep b = true
  · have hne : (Char.ofUInt8 b == '%') = false := by
      rw [beq_eq_false_iff_ne]
      intro hc
      have : b = 0x25 := UInt8.toNat_inj.1 (congrArg Char.toNat hc)
      rw [this, hkeep] at h
      cases h
    rw [if_pos h, List.singleton_append, decode_cons_of_ne hne]
  · have hpercent : (Char.ofUInt8 0x25 == '%') = true := rfl
    have hvalue : 16 * (b.toNat / 16) + b.toNat % 16 = b.toNat := by omega
    rw [if_neg h, List.cons_append, List.cons_append, List.singleton_append, decode, hpercent,
      digit?_octetDigit _ (by omega), digit?_octetDigit _ (by omega)]
    simp only [hvalue, UInt8.ofNat_toNat]

/-- **What is written is read back.** -/
lemma decode_flatMap_escapeOctets (hkeep : keep 0x25 = false) (bs rest : Octets) :
    decode (bs.flatMap (escapeOctets keep) ++ rest) = bs ++ decode rest := by
  induction bs with
  | nil => rfl
  | cons b bs ih =>
    rw [List.flatMap_cons, List.append_assoc, decode_escapeOctets hkeep, ih, List.cons_append]

lemma unreserved_lt : ∀ b, unreserved b = true → b.toNat < 0x80 := by
  have h : ∀ n < 256, unreserved (UInt8.ofNat n) = true → n < 0x80 := by decide +kernel
  intro b hb
  exact h b.toNat b.toNat_lt (by rwa [UInt8.ofNat_toNat])

end SigV4.Percent
