import SigV4.Proofs.Text.Percent

/-!
The form of percent coded text, and what it is read as.

Coded text is made of kept characters and of percent signs with two upper-case digits after each.
What is written has this form, and its octets are read as those it was written from, so two texts
are never written alike.
-/

namespace SigV4.Percent

/-- An upper-case hexadecimal digit. -/
def isUpperHex (c : Char) : Bool := "0123456789ABCDEF".toList.contains c

/-- Text made of kept characters and of escapes. -/
inductive IsCoded (keep : Char → Bool) : List Char → Prop
  | nil : IsCoded keep []
  | kept {c : Char} {rest : List Char} (hc : keep c = true) (h : IsCoded keep rest) :
      IsCoded keep (c :: rest)
  | escape {high low : Char} {rest : List Char} (hhigh : isUpperHex high = true)
      (hlow : isUpperHex low = true) (h : IsCoded keep rest) :
      IsCoded keep ('%' :: high :: low :: rest)

lemma upperDigit_isUpperHex : ∀ n < 16, isUpperHex (Hex.upperDigit n) = true := by decide

variable {keep : UInt8 → Bool}

lemma isCoded_encodeOctets {keepChar : Char → Bool}
    (hkeep : ∀ b, keep b = true → keepChar (Char.ofUInt8 b) = true) (bs : Octets) :
    IsCoded keepChar (encodeOctets keep bs) := by
  induction bs with
  | nil => exact .nil
  | cons b bs ih =>
    have hb : b.toNat < 256 := b.toNat_lt
    have hcons : encodeOctets keep (b :: bs) = escape keep b ++ encodeOctets keep bs := rfl
    rw [hcons, escape]
    by_cases h : keep b = true
    · rw [if_pos h]
      exact .kept (hkeep b h) ih
    · rw [if_neg h]
      exact .escape (upperDigit_isUpperHex _ (by omega)) (upperDigit_isUpperHex _ (by omega)) ih

lemma isCoded_encode (s : String) : IsCoded isUnreservedChar (encode unreserved s).toList := by
  rw [encode, String.toList_ofList]
  exact isCoded_encodeOctets (fun _ h => h) _

/-- **The octets of a written text are read as those of the text.** -/
lemma decode_utf8_encode (hkeep : ∀ b, keep b = true → b.toNat < 0x80)
    (hpercent : keep 0x25 = false) (s : String) : decode (utf8 (encode keep s)) = utf8 s := by
  have hnil : decode [] = [] := rfl
  have h := decode_flatMap_escapeOctets hpercent (utf8 s) []
  rwa [← utf8_encode hkeep, List.append_nil, hnil, List.append_nil] at h

lemma decode_eq_nil {bs : Octets} : decode bs = [] ↔ bs = [] := by
  constructor
  · intro h
    match bs with
    | [] => rfl
    | [_] => cases h
    | [_, _] => cases h
    | _ :: _ :: _ :: _ =>
      unfold decode at h
      split at h <;> cases h
  · rintro rfl
    rfl

end SigV4.Percent
