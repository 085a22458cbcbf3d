import SigV4.Proofs.Text.Marks

/-!
Cutting the octets of a text.

The octets of a text can be cut anywhere, but only between two characters are both sides octets of
a text. The octets at the start tell whether they end there, and the octets at the end whether they
begin there, whatever stands on the other side of the cut; an ASCII mark tells it of both sides.
-/

namespace SigV4.Utf8

variable {b : UInt8} {as bs cs : List Char} {xs ys : Octets}

lemma octetsOf_append (as bs : List Char) : octetsOf (as ++ bs) = octetsOf as ++ octetsOf bs :=
  List.flatMap_append

lemma octetsOf_injective : Function.Injective octetsOf := by
  intro as bs h
  rw [octetsOf, octetsOf, ← utf8_ofList, ← utf8_ofList] at h
  exact String.ofList_injective (utf8_injective h)

lemma isText_iff : IsText xs ↔ ∃ cs, octetsOf cs = xs := by
  constructor
  · rintro ⟨s, rfl⟩
    exact ⟨s.toList, rfl⟩
  · rintro ⟨cs, rfl⟩
    exact ⟨String.ofList cs, utf8_ofList cs⟩

lemma length_utf8 (s : String) : (utf8 s).length = s.utf8ByteSize := by
  have hbytes : s.toByteArray = (utf8 s).toByteArray := by
    conv_lhs => rw [← String.ofList_toList (s := s)]
    exact String.toByteArray_ofList
  rw [← String.size_toByteArray, hbytes, List.size_toByteArray]

lemma length_le_length_octetsOf (cs : List Char) : cs.length ≤ (octetsOf cs).length := by
  induction cs with
  | nil => exact Nat.le_refl _
  | cons c cs ih =>
    have hc := c.utf8Size_pos
    rw [octetsOf_cons, List.length_append, String.length_utf8EncodeChar, List.length_cons]
    omega

lemma length_octetsOf_eq_iff (cs : List Char) :
    (octetsOf cs).length = cs.length ↔ ∀ c ∈ cs, c.utf8Size = 1 := by
  induction cs with
  | nil => simp
  | cons c cs ih =>
    have hc := c.utf8Size_pos
    have hcs := length_le_length_octetsOf cs
    rw [octetsOf_cons, List.length_append, String.length_utf8EncodeChar, List.length_cons,
      List.forall_mem_cons, ← ih]
    omega

/-- **A text at the start of the octets is at the start of the text.** -/
lemma octetsOf_isPrefix_iff : octetsOf as <+: octetsOf cs ↔ as <+: cs := by
  constructor
  · intro h
    induction as generalizing cs with
    | nil => exact List.nil_prefix
    | cons a as ih =>
      obtain ⟨rest, hrest⟩ := h
      cases cs with
      | nil => simp [octetsOf_cons, String.utf8EncodeChar_ne_nil] at hrest
      | cons c cs =>
        rw [octetsOf_cons, octetsOf_cons, List.append_assoc] at hrest
        have hread := congrArg (pieces none) hrest
        rw [pieces_utf8EncodeChar, pieces_utf8EncodeChar] at hread
        obtain rfl : a = c := Piece.char.inj (List.cons.inj hread).1
        exact List.cons_prefix_cons.2 ⟨rfl, ih ⟨rest, List.append_cancel_left hrest⟩⟩
  · rintro ⟨rest, rfl⟩
    exact ⟨octetsOf rest, (octetsOf_append _ _).symm⟩

/-- A text does not begin in the middle of a character: its first octet begins one, and the octets
of a character behind the first one do not. -/
lemma eq_nil_of_octetsOf_append {c : Char} (hc : String.utf8EncodeChar c = xs ++ ys)
    (hys : ys ≠ []) (h : octetsOf bs = ys ++ octetsOf cs) : xs = [] := by
  obtain ⟨y, ys, rfl⟩ := List.exists_cons_of_ne_nil hys
  cases bs with
  | nil => cases h
  | cons d bs =>
    obtain ⟨y', rest, hd⟩ := List.exists_cons_of_ne_nil (String.utf8EncodeChar_ne_nil (c := d))
    rw [octetsOf_cons, hd] at h
    obtain rfl : y' = y := (List.cons.inj h).1
    have hfirst : y'.IsUTF8FirstByte := by
      have hpos : 0 < (String.utf8EncodeChar d).length := by simp [hd]
      have hzero : (String.utf8EncodeChar d)[0].IsUTF8FirstByte :=
        UInt8.isUTF8FirstByte_getElem_utf8EncodeChar.2 rfl
      simpa only [hd, List.getElem_cons_zero] using hzero
    have hinner : xs.length < (String.utf8EncodeChar c).length := by simp [hc]
    have hindex : (String.utf8EncodeChar c)[xs.length].IsUTF8FirstByte := by
      simpa only [hc, List.getElem_append_right (Nat.le_refl _), Nat.sub_self,
        List.getElem_cons_zero] using hfirst
    exact List.length_eq_zero_iff.1 (UInt8.isUTF8FirstByte_getElem_utf8EncodeChar.1 hindex)

/-- **A text at the end of the octets is at the end of the text.** -/
lemma octetsOf_isSuffix_iff : octetsOf bs <:+ octetsOf cs ↔ bs <:+ cs := by
  constructor
  · intro h
    induction cs with
    | nil =>
      have hnil := List.suffix_nil.1 h
      exact octetsOf_injective (hnil.trans octetsOf_nil.symm) ▸ List.suffix_rfl
    | cons c cs ih =>
      obtain ⟨front, hfront⟩ := h
      rw [octetsOf_cons, List.append_eq_append_iff] at hfront
      rcases hfront with ⟨inner, hc, hbs⟩ | ⟨between, -, hcs⟩
      · by_cases hinner : inner = []
        · subst hinner
          exact octetsOf_injective hbs ▸ List.suffix_cons _ _
        · have hfront := eq_nil_of_octetsOf_append hc hinner hbs
          subst hfront
          rw [List.nil_append] at hc
          rw [← hc, ← octetsOf_cons] at hbs
          exact octetsOf_injective hbs ▸ List.suffix_rfl
      · exact (ih ⟨between, hcs.symm⟩).trans (List.suffix_cons _ _)
  · rintro ⟨front, rfl⟩
    exact ⟨octetsOf front, (octetsOf_append _ _).symm⟩

lemma exists_octetsOf_of_mark (hb : b.toNat < 0x80) (h : octetsOf cs = xs ++ b :: ys) :
    ∃ as bs, octetsOf as = xs ∧ octetsOf bs = ys := by
  induction cs generalizing xs with
  | nil => simp at h
  | cons c cs ih =>
    by_cases hc : c = Char.ofUInt8 b
    · subst hc
      rw [octetsOf_cons_mark hb, List.cons_eq_append_iff] at h
      rcases h with ⟨rfl, hcs⟩ | ⟨rest, rfl, hcs⟩
      · exact ⟨[], cs, rfl, (List.cons.inj hcs).2.symm⟩
      · obtain ⟨as, bs, has, hbs⟩ := ih hcs
        exact ⟨Char.ofUInt8 b :: as, bs, by rw [octetsOf_cons_mark hb, has], hbs⟩
    · -- The mark is no octet of another character, so it stands behind this one.
      rw [octetsOf_cons, List.append_eq_append_iff] at h
      obtain ⟨rest, rfl, hcs⟩ : ∃ rest, xs = String.utf8EncodeChar c ++ rest ∧
          octetsOf cs = rest ++ b :: ys := by
        rcases h with behind | ⟨inner, hinner, hmark⟩
        · exact behind
        · cases inner with
          | nil => exact ⟨[], by simp [hinner], hmark.symm⟩
          | cons d inner =>
            obtain rfl : b = d := (List.cons.inj hmark).1
            exact absurd (by simp [hinner]) (not_mem_utf8EncodeChar hb hc)
      obtain ⟨as, bs, has, hbs⟩ := ih hcs
      exact ⟨c :: as, bs, by rw [octetsOf_cons, has], hbs⟩

lemma isText_append_cons_iff (hb : b.toNat < 0x80) :
    IsText (xs ++ b :: ys) ↔ IsText xs ∧ IsText ys := by
  rw [isText_iff, isText_iff, isText_iff]
  constructor
  · rintro ⟨cs, hcs⟩
    obtain ⟨as, bs, has, hbs⟩ := exists_octetsOf_of_mark hb hcs
    exact ⟨⟨as, has⟩, bs, hbs⟩
  · rintro ⟨⟨as, rfl⟩, bs, rfl⟩
    exact ⟨as ++ Char.ofUInt8 b :: bs, by rw [octetsOf_append, octetsOf_cons_mark hb]⟩

end SigV4.Utf8
