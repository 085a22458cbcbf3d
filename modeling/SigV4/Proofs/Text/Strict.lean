import SigV4.Proofs.Text.Utf8

/-!
Octets that are read without a fault.

The strict reading comes to a text exactly if the octets are the written form of it: each character
that is read has taken its own octets and no others, and any other octet is a fault.
-/

namespace SigV4.Utf8

lemma toNat_ofNat_of_valid {v : Nat} (hv : v < 0xD800 ∨ 0xDFFF < v ∧ v < 0x110000) :
    (Char.ofNat v).val.toNat = v := by
  have hvalid : v.isValidChar := hv
  rw [Char.ofNat, dif_pos hvalid]
  rfl

lemma exists_next {p : Begun} {bs : Octets} {cs : List Char}
    (h : pieces (some p) bs = cs.map .char) :
    ∃ b rest, bs = b :: rest ∧ p.low ≤ b.toNat ∧ b.toNat ≤ p.high := by
  cases bs with
  | nil => cases cs <;> simp [pieces] at h
  | cons b rest =>
    by_cases hb : p.low ≤ b.toNat ∧ b.toNat ≤ p.high
    · exact ⟨b, rest, rfl, hb⟩
    · cases cs <;> simp [pieces, step, hb] at h

lemma eq_of_char_cons {v : Nat} {ps : List Piece} {c : Char} {cs : List Char}
    (h : .char (Char.ofNat v) :: ps = (c :: cs).map Piece.char) :
    c = Char.ofNat v ∧ ps = cs.map .char := by
  rw [List.map_cons, List.cons.injEq, Piece.char.injEq] at h
  exact ⟨h.1.symm, h.2⟩

variable {a x y z : UInt8}

lemma utf8EncodeChar_two (ha : 0xC2 ≤ a.toNat ∧ a.toNat ≤ 0xDF)
    (hx : 0x80 ≤ x.toNat ∧ x.toNat ≤ 0xBF) :
    String.utf8EncodeChar (Char.ofNat (a.toNat % 32 * 64 + x.toNat % 64)) = [a, x] := by
  have hv := toNat_ofNat_of_valid (v := a.toNat % 32 * 64 + x.toNat % 64) (by omega)
  unfold String.utf8EncodeChar
  simp only [hv]
  rw [if_neg (by omega), if_pos (by omega)]
  simp only [List.cons.injEq, ← UInt8.toNat_inj, and_true]
  rw [toNat_ofNat (by omega), toNat_ofNat (by omega)]
  omega

lemma utf8EncodeChar_three (ha : 0xE0 ≤ a.toNat ∧ a.toNat ≤ 0xEF)
    (hx : (if a.toNat = 0xE0 then 0xA0 else 0x80) ≤ x.toNat ∧
      x.toNat ≤ if a.toNat = 0xED then 0x9F else 0xBF)
    (hy : 0x80 ≤ y.toNat ∧ y.toNat ≤ 0xBF) :
    String.utf8EncodeChar (Char.ofNat ((a.toNat % 16 * 64 + x.toNat % 64) * 64 + y.toNat % 64)) =
      [a, x, y] := by
  have hrange : 0x80 ≤ x.toNat ∧ x.toNat ≤ 0xBF ∧ (a.toNat = 0xE0 → 0xA0 ≤ x.toNat) ∧
      (a.toNat = 0xED → x.toNat ≤ 0x9F) := by
    split_ifs at hx <;> omega
  have hv := toNat_ofNat_of_valid
    (v := (a.toNat % 16 * 64 + x.toNat % 64) * 64 + y.toNat % 64) (by omega)
  unfold String.utf8EncodeChar
  simp only [hv]
  rw [if_neg (by omega), if_neg (by omega), if_pos (by omega)]
  simp only [List.cons.injEq, ← UInt8.toNat_inj, and_true]
  rw [toNat_ofNat (by omega), toNat_ofNat (by omega), toNat_ofNat (by omega)]
  omega

lemma utf8EncodeChar_four (ha : 0xF0 ≤ a.toNat ∧ a.toNat ≤ 0xF4)
    (hx : (if a.toNat = 0xF0 then 0x90 else 0x80) ≤ x.toNat ∧
      x.toNat ≤ if a.toNat = 0xF4 then 0x8F else 0xBF)
    (hy : 0x80 ≤ y.toNat ∧ y.toNat ≤ 0xBF) (hz : 0x80 ≤ z.toNat ∧ z.toNat ≤ 0xBF) :
    String.utf8EncodeChar (Char.ofNat
      (((a.toNat % 8 * 64 + x.toNat % 64) * 64 + y.toNat % 64) * 64 + z.toNat % 64)) =
        [a, x, y, z] := by
  have hrange : 0x80 ≤ x.toNat ∧ x.toNat ≤ 0xBF ∧ (a.toNat = 0xF0 → 0x90 ≤ x.toNat) ∧
      (a.toNat = 0xF4 → x.toNat ≤ 0x8F) := by
    split_ifs at hx <;> omega
  have hv := toNat_ofNat_of_valid
    (v := ((a.toNat % 8 * 64 + x.toNat % 64) * 64 + y.toNat % 64) * 64 + z.toNat % 64) (by omega)
  unfold String.utf8EncodeChar
  simp only [hv]
  rw [if_neg (by omega), if_neg (by omega), if_neg (by omega)]
  simp only [List.cons.injEq, ← UInt8.toNat_inj, and_true]
  rw [toNat_ofNat (by omega), toNat_ofNat (by omega), toNat_ofNat (by omega),
    toNat_ofNat (by omega)]
  omega

lemma start_bad {b : UInt8} (h : 0x80 ≤ b.toNat) (hlow : b.toNat < 0xC2 ∨ 0xDF < b.toNat)
    (hhigh : b.toNat < 0xE0 ∨ 0xF4 < b.toNat) : start b = .inl (.bad 1) := by
  unfold start
  rw [if_neg (by omega), if_neg (by omega), if_neg (by omega), if_neg (by omega), if_neg (by omega),
    if_neg (by omega), if_neg (by omega), if_neg (by omega)]

/-- **The first character that is read has taken its own octets.** -/
lemma exists_of_pieces_cons {bs : Octets} {c : Char} {cs : List Char}
    (h : pieces none bs = (c :: cs).map .char) :
    ∃ rest, bs = String.utf8EncodeChar c ++ rest ∧ pieces none rest = cs.map .char := by
  cases bs with
  | nil => cases h
  | cons a bs =>
    -- How many octets the character has is told by the first one.
    by_cases h1 : a.toNat < 0x80
    · rw [pieces_ascii h1] at h
      obtain ⟨rfl, hrest⟩ := eq_of_char_cons h
      have hchar : Char.ofNat a.toNat = Char.ofUInt8 a := Char.ofNat_toNat (Char.ofUInt8 a)
      exact ⟨bs, by rw [hchar, utf8EncodeChar_ofUInt8 h1]; rfl, hrest⟩
    by_cases h2 : 0xC2 ≤ a.toNat ∧ a.toNat ≤ 0xDF
    · rw [pieces_begin (start_two h2)] at h
      obtain ⟨x, bs, rfl, hx⟩ := exists_next h
      rw [pieces_last hx rfl] at h
      obtain ⟨rfl, hrest⟩ := eq_of_char_cons h
      exact ⟨bs, by rw [utf8EncodeChar_two h2 hx]; rfl, hrest⟩
    by_cases h3 : 0xE0 ≤ a.toNat ∧ a.toNat ≤ 0xEF
    · rw [pieces_begin (start_three h3)] at h
      obtain ⟨x, bs, rfl, hx⟩ := exists_next h
      rw [pieces_next hx (by simp)] at h
      obtain ⟨y, bs, rfl, hy⟩ := exists_next h
      rw [pieces_last hy rfl] at h
      obtain ⟨rfl, hrest⟩ := eq_of_char_cons h
      exact ⟨bs, by rw [utf8EncodeChar_three h3 hx hy]; rfl, hrest⟩
    by_cases h4 : 0xF0 ≤ a.toNat ∧ a.toNat ≤ 0xF4
    · rw [pieces_begin (start_four h4)] at h
      obtain ⟨x, bs, rfl, hx⟩ := exists_next h
      rw [pieces_next hx (by simp)] at h
      obtain ⟨y, bs, rfl, hy⟩ := exists_next h
      rw [pieces_next hy (by simp)] at h
      obtain ⟨z, bs, rfl, hz⟩ := exists_next h
      rw [pieces_last hz rfl] at h
      obtain ⟨rfl, hrest⟩ := eq_of_char_cons h
      exact ⟨bs, by rw [utf8EncodeChar_four h4 hx hy hz]; rfl, hrest⟩
    · have hbad := start_bad (b := a) (by omega) (by omega) (by omega)
      simp [pieces, step, fresh, hbad] at h

lemma flatMap_of_pieces {bs : Octets} {cs : List Char} (h : pieces none bs = cs.map .char) :
    cs.flatMap String.utf8EncodeChar = bs := by
  induction cs generalizing bs with
  | nil => exact (pieces_eq_nil h).2.symm
  | cons c cs ih =>
    obtain ⟨rest, rfl, hrest⟩ := exists_of_pieces_cons h
    rw [List.flatMap_cons, ih hrest]

lemma eq_map_of_characters {offset : Nat} {ps : List Piece} {cs : List Char}
    (h : characters offset ps = .ok cs) : ps = cs.map .char := by
  induction ps generalizing offset cs with
  | nil => cases h; rfl
  | cons p ps ih =>
    cases p with
    | char c =>
      rw [characters] at h
      cases hrest : characters (offset + c.utf8Size) ps with
      | error e => rw [hrest] at h; cases h
      | ok rest =>
        rw [hrest] at h
        cases h
        rw [ih hrest, List.map_cons]
    | bad n => cases h
    | cut n => cases h

/-- **The strict reading comes to a text exactly from the written form of it.** -/
lemma decode_eq_ok_iff {bs : Octets} {s : String} : decode bs = .ok s ↔ utf8 s = bs := by
  constructor
  · intro h
    cases hcs : characters 0 (pieces none bs) with
    | error e => rw [decode, hcs] at h; cases h
    | ok cs =>
      rw [decode, hcs] at h
      cases h
      rw [utf8_ofList, flatMap_of_pieces (eq_map_of_characters hcs)]
  · rintro rfl
    exact decode_utf8 s

end SigV4.Utf8
