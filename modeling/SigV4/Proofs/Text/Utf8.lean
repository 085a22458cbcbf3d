import Mathlib.Data.List.Basic
import Mathlib.Tactic.Lemma
import SigV4.Text.Utf8

/-!
Reading back what was written.

Octets that were written from a text are read as that text, by the strict reading and by the
lossy one; the reader goes through the octets of one character and is then between characters
again. Octets that no text is written as do not survive the lossy reading.
-/

namespace SigV4

/-- The octets are the written form of a text. -/
def IsText (bs : Octets) : Prop := ∃ s, utf8 s = bs

lemma utf8_ofList (cs : List Char) :
    utf8 (String.ofList cs) = cs.flatMap String.utf8EncodeChar := by
  simp [utf8]

lemma utf8_eq_nil {s : String} : utf8 s = [] ↔ s = "" := by
  constructor
  · intro h
    rw [utf8, List.flatMap_eq_nil_iff] at h
    rw [← String.toList_eq_nil_iff, List.eq_nil_iff_forall_not_mem]
    intro c hc
    exact String.utf8EncodeChar_ne_nil (h c hc)
  · rintro rfl
    rfl

namespace Utf8

lemma toNat_ofNat {n : Nat} (h : n < 256) : (UInt8.ofNat n).toNat = n := by
  rw [UInt8.toNat_ofNat', Nat.mod_eq_of_lt h]

lemma utf8EncodeChar_ofUInt8 {b : UInt8} (h : b.toNat < 0x80) :
    String.utf8EncodeChar (Char.ofUInt8 b) = [b] := by
  have hv : (Char.ofUInt8 b).val.toNat = b.toNat := rfl
  unfold String.utf8EncodeChar
  simp only [hv]
  rw [if_pos (by omega), UInt8.ofNat_toNat]

lemma eq_ofUInt8_of_mem {c : Char} {b : UInt8} (hb : b.toNat < 0x80)
    (h : b ∈ String.utf8EncodeChar c) : c = Char.ofUInt8 b := by
  obtain ⟨v, hv⟩ : ∃ v, c.val.toNat = v := ⟨_, rfl⟩
  have hvalid : v < 0xD800 ∨ 0xDFFF < v ∧ v < 0x110000 := hv ▸ c.valid
  unfold String.utf8EncodeChar at h
  simp only [hv] at h
  by_cases h1 : v ≤ 0x7F
  · rw [if_pos h1, List.mem_singleton] at h
    have hbv : b.toNat = v := by rw [h, toNat_ofNat (by omega)]
    exact Char.toNat_inj.1 (hv.trans hbv.symm)
  rw [if_neg h1] at h
  -- All octets of a longer character are above the ASCII ones.
  exfalso
  split_ifs at h <;> simp only [List.mem_cons, List.not_mem_nil, or_false] at h
  · rcases h with rfl | rfl <;> rw [toNat_ofNat (by omega)] at hb <;> omega
  · rcases h with rfl | rfl | rfl <;> rw [toNat_ofNat (by omega)] at hb <;> omega
  · rcases h with rfl | rfl | rfl | rfl <;> rw [toNat_ofNat (by omega)] at hb <;> omega

lemma pieces_ascii {b : UInt8} (h : b.toNat < 0x80) (bs : Octets) :
    pieces none (b :: bs) = .char (Char.ofNat b.toNat) :: pieces none bs := by
  simp [pieces, step, fresh, start, h]

lemma pieces_begin {b : UInt8} {p : Begun} (h : start b = .inr p) (bs : Octets) :
    pieces none (b :: bs) = pieces (some p) bs := by
  simp [pieces, step, fresh, h]

lemma pieces_next {p : Begun} {b : UInt8} (hb : p.low ≤ b.toNat ∧ b.toNat ≤ p.high)
    (h : p.owed ≠ 1) (bs : Octets) :
    pieces (some p) (b :: bs) =
      pieces (some ⟨p.owed - 1, 0x80, 0xBF, p.bits * 64 + b.toNat % 64, p.taken + 1⟩) bs := by
  simp [pieces, step, hb, h]

lemma pieces_last {p : Begun} {b : UInt8} (hb : p.low ≤ b.toNat ∧ b.toNat ≤ p.high)
    (h : p.owed = 1) (bs : Octets) :
    pieces (some p) (b :: bs) =
      .char (Char.ofNat (p.bits * 64 + b.toNat % 64)) :: pieces none bs := by
  simp [pieces, step, hb, h]

lemma start_two {b : UInt8} (h : 0xC2 ≤ b.toNat ∧ b.toNat ≤ 0xDF) :
    start b = .inr ⟨1, 0x80, 0xBF, b.toNat % 32, 1⟩ := by
  unfold start
  rw [if_neg (by omega), if_pos h]

/-- The bounds of the second octet keep out what is too small for three octets, and surrogates. -/
lemma start_three {b : UInt8} (h : 0xE0 ≤ b.toNat ∧ b.toNat ≤ 0xEF) :
    start b = .inr ⟨2, if b.toNat = 0xE0 then 0xA0 else 0x80,
      if b.toNat = 0xED then 0x9F else 0xBF, b.toNat % 16, 1⟩ := by
  unfold start
  rw [if_neg (by omega), if_neg (by omega)]
  by_cases h0 : b.toNat = 0xE0
  · simp [h0]
  · by_cases hd : b.toNat = 0xED
    · simp [hd]
    · rw [if_neg h0, if_neg hd, if_pos (by omega), if_neg h0, if_neg hd]

/-- The bounds of the second octet keep out what is too small for four octets, or too great. -/
lemma start_four {b : UInt8} (h : 0xF0 ≤ b.toNat ∧ b.toNat ≤ 0xF4) :
    start b = .inr ⟨3, if b.toNat = 0xF0 then 0x90 else 0x80,
      if b.toNat = 0xF4 then 0x8F else 0xBF, b.toNat % 8, 1⟩ := by
  unfold start
  rw [if_neg (by omega), if_neg (by omega), if_neg (by omega), if_neg (by omega), if_neg (by omega)]
  by_cases h0 : b.toNat = 0xF0
  · simp [h0]
  · by_cases h4 : b.toNat = 0xF4
    · simp [h4]
    · rw [if_neg h0, if_pos (by omega), if_neg h0, if_neg h4]

/-- **One character.** The reader goes through the octets of a character and is then between
characters again. -/
lemma pieces_utf8EncodeChar (c : Char) (bs : Octets) :
    pieces none (String.utf8EncodeChar c ++ bs) = .char c :: pieces none bs := by
  obtain ⟨v, hv⟩ : ∃ v, c.val.toNat = v := ⟨_, rfl⟩
  have hc : Char.ofNat v = c := by rw [← hv]; exact Char.ofNat_toNat c
  have hvalid : v < 0xD800 ∨ 0xDFFF < v ∧ v < 0x110000 := hv ▸ c.valid
  unfold String.utf8EncodeChar
  simp only [hv]
  by_cases h1 : v ≤ 0x7F
  · rw [if_pos h1]
    have hb := toNat_ofNat (n := v) (by omega)
    rw [List.singleton_append, pieces_ascii (by omega), hb, hc]
  rw [if_neg h1]
  by_cases h2 : v ≤ 0x7FF
  · rw [if_pos h2]
    have ha := toNat_ofNat (n := v / 64 % 32 + 192) (by omega)
    have hb := toNat_ofNat (n := v % 64 + 128) (by omega)
    rw [List.cons_append, List.singleton_append, pieces_begin (start_two (by omega)),
      pieces_last (by dsimp only; omega) rfl, ha, hb]
    rw [show (v / 64 % 32 + 192) % 32 * 64 + (v % 64 + 128) % 64 = v by omega, hc]
  rw [if_neg h2]
  by_cases h3 : v ≤ 0xFFFF
  · rw [if_pos h3]
    have ha := toNat_ofNat (n := v / 4096 % 16 + 224) (by omega)
    have hb := toNat_ofNat (n := v / 64 % 64 + 128) (by omega)
    have hd := toNat_ofNat (n := v % 64 + 128) (by omega)
    rw [List.cons_append, List.cons_append, List.singleton_append,
      pieces_begin (start_three (by omega)),
      pieces_next (by dsimp only; split_ifs <;> omega) (by simp),
      pieces_last (by dsimp only; omega) rfl, ha, hb, hd]
    rw [show ((v / 4096 % 16 + 224) % 16 * 64 + (v / 64 % 64 + 128) % 64) * 64 +
      (v % 64 + 128) % 64 = v by omega, hc]
  · rw [if_neg h3]
    have ha := toNat_ofNat (n := v / 262144 % 8 + 240) (by omega)
    have hb := toNat_ofNat (n := v / 4096 % 64 + 128) (by omega)
    have hd := toNat_ofNat (n := v / 64 % 64 + 128) (by omega)
    have he := toNat_ofNat (n := v % 64 + 128) (by omega)
    rw [List.cons_append, List.cons_append, List.cons_append, List.singleton_append,
      pieces_begin (start_four (by omega)),
      pieces_next (by dsimp only; split_ifs <;> omega) (by simp),
      pieces_next (by dsimp only; omega) (by simp),
      pieces_last (by dsimp only; omega) rfl, ha, hb, hd, he]
    rw [show (((v / 262144 % 8 + 240) % 8 * 64 + (v / 4096 % 64 + 128) % 64) * 64 +
      (v / 64 % 64 + 128) % 64) * 64 + (v % 64 + 128) % 64 = v by omega, hc]

lemma pieces_flatMap (cs : List Char) :
    pieces none (cs.flatMap String.utf8EncodeChar) = cs.map .char := by
  induction cs with
  | nil => rfl
  | cons c cs ih => rw [List.flatMap_cons, pieces_utf8EncodeChar, ih, List.map_cons]

lemma characters_map (offset : Nat) (cs : List Char) :
    characters offset (cs.map .char) = .ok cs := by
  induction cs generalizing offset with
  | nil => rfl
  | cons c cs ih => rw [List.map_cons, characters, ih]; rfl

@[simp] lemma decode_utf8 (s : String) : decode (utf8 s) = .ok s := by
  rw [decode, utf8, pieces_flatMap, characters_map]
  exact congrArg Except.ok String.ofList_toList

@[simp] lemma decodeLossy_utf8 (s : String) : decodeLossy (utf8 s) = s := by
  have hid : (Piece.replaced ∘ Piece.char) = id := rfl
  rw [decodeLossy, utf8, pieces_flatMap, List.map_map, hid, List.map_id, String.ofList_toList]

lemma utf8_injective : Function.Injective utf8 := by
  intro s t h
  rw [← decodeLossy_utf8 s, ← decodeLossy_utf8 t, h]

lemma fresh_ne_nil {b : UInt8} (h : (fresh b).1 = none) : (fresh b).2 ≠ [] := by
  unfold fresh at h ⊢
  cases hb : start b with
  | inl piece => simp
  | inr p => simp [hb] at h

lemma step_ne_nil {state : Option Begun} {b : UInt8} (h : (step state b).1 = none) :
    (step state b).2 ≠ [] := by
  cases state with
  | none => exact fresh_ne_nil h
  | some p =>
    unfold step at h ⊢
    by_cases hb : p.low ≤ b.toNat ∧ b.toNat ≤ p.high
    · by_cases howed : p.owed = 1
      · simp [hb, howed]
      · simp [hb, howed] at h
    · simp [hb]

lemma pieces_eq_nil {state : Option Begun} {bs : Octets} (h : pieces state bs = []) :
    state = none ∧ bs = [] := by
  induction bs generalizing state with
  | nil =>
    cases state with
    | none => exact ⟨rfl, rfl⟩
    | some p => simp [pieces] at h
  | cons b bs ih =>
    rw [pieces, List.append_eq_nil_iff] at h
    exact absurd h.1 (step_ne_nil (ih h.2).1)

lemma decodeLossy_eq_empty {bs : Octets} : decodeLossy bs = "" ↔ bs = [] := by
  constructor
  · intro h
    rw [decodeLossy, ← String.toList_eq_nil_iff, String.toList_ofList, List.map_eq_nil_iff] at h
    exact (pieces_eq_nil h).2
  · rintro rfl
    rfl

lemma characters_eq_nil {offset : Nat} {ps : List Piece} (h : characters offset ps = .ok []) :
    ps = [] := by
  cases ps with
  | nil => rfl
  | cons p ps =>
    cases p with
    | char c =>
      cases hcs : characters (offset + c.utf8Size) ps with
      | error e => simp [characters, hcs, Except.map] at h
      | ok cs => simp [characters, hcs, Except.map] at h
    | bad n => cases h
    | cut n => cases h

lemma decode_ne_empty {bs : Octets} {s : String} (hbs : bs ≠ []) (h : decode bs = .ok s) :
    s ≠ "" := by
  rintro rfl
  cases hcs : characters 0 (pieces none bs) with
  | error e => rw [decode, hcs] at h; cases h
  | ok cs =>
    rw [decode, hcs] at h
    have hnil : cs = [] := String.ofList_eq_empty_iff.1 (Except.ok.inj h)
    rw [hnil] at hcs
    exact hbs (pieces_eq_nil (characters_eq_nil hcs)).2

def repair (bs : Octets) : Octets := utf8 (decodeLossy bs)

lemma isText_repair (bs : Octets) : IsText (repair bs) := ⟨_, rfl⟩

lemma repair_eq_self_iff {bs : Octets} : repair bs = bs ↔ IsText bs := by
  constructor
  · intro h
    exact ⟨_, h⟩
  · rintro ⟨s, rfl⟩
    rw [repair, decodeLossy_utf8]

lemma repair_eq_nil {bs : Octets} : repair bs = [] ↔ bs = [] := by
  rw [repair, utf8_eq_nil, decodeLossy_eq_empty]

end Utf8

end SigV4
