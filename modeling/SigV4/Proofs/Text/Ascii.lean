import SigV4.Proofs.Text.Marks
import SigV4.Proofs.Text.Percent
import SigV4.Text.Ascii

/-!
ASCII text and its octets.

A character of ASCII is one octet, its code point. So ASCII text is ordered like its octets, and
letters and digits stay among the visible ones.
-/

namespace SigV4

lemma Ascii.toNat_of_isAlphanum {c : Char} (h : c.isAlphanum = true) :
    48 ≤ c.toNat ∧ c.toNat ≤ 122 := by
  have hrange : ∀ a b : Char, (decide (c.val ≥ a.val) && decide (c.val ≤ b.val)) = true →
      a.toNat ≤ c.toNat ∧ c.toNat ≤ b.toNat := by
    intro a b hab
    rw [Bool.and_eq_true, decide_eq_true_eq, decide_eq_true_eq] at hab
    exact hab
  rcases (Bool.or_eq_true _ _).mp (show (c.isAlpha || c.isDigit) = true from h) with h | h
  · rcases (Bool.or_eq_true _ _).mp (show (c.isUpper || c.isLower) = true from h) with h | h
    · have hupper : 'A'.toNat ≤ c.toNat ∧ c.toNat ≤ 'Z'.toNat :=
        of_decide_eq_true (p := c.val ≥ 'A'.val ∧ c.val ≤ 'Z'.val) h
      rw [show 'A'.toNat = 65 from rfl, show 'Z'.toNat = 90 from rfl] at hupper
      omega
    · have hlower := hrange 'a' 'z' h
      rw [show 'a'.toNat = 97 from rfl, show 'z'.toNat = 122 from rfl] at hlower
      omega
  · have hdigit := hrange '0' '9' h
    rw [show '0'.toNat = 48 from rfl, show '9'.toNat = 57 from rfl] at hdigit
    omega

lemma Ascii.isAlphanum_of_isUpper {c : Char} (h : c.isUpper = true) : c.isAlphanum = true :=
  (Bool.or_eq_true _ _).mpr (.inl ((Bool.or_eq_true _ _).mpr (.inl h)))

/-- A class of characters that takes every capital for its small letter takes all letters alike. -/
lemma Ascii.of_toLower {p : Char → Bool}
    (hp : ∀ n < 26, p (Char.ofNat (n + 65)).toLower = p (Char.ofNat (n + 65))) (c : Char) :
    p c.toLower = p c := by
  by_cases hc : c.isUpper = true
  · have hrange : 'A'.toNat ≤ c.toNat ∧ c.toNat ≤ 'Z'.toNat :=
      of_decide_eq_true (p := c.val ≥ 'A'.val ∧ c.val ≤ 'Z'.val) hc
    rw [show 'A'.toNat = 65 from rfl, show 'Z'.toNat = 90 from rfl] at hrange
    have hcode : c.toNat - 65 + 65 = c.toNat := by omega
    have hletter := hp (c.toNat - 65) (by omega)
    rwa [hcode, Char.ofNat_toNat] at hletter
  · rw [Ascii.toLower_eq_self (by simpa using hc)]

lemma Ascii.isBlank_toLower (c : Char) : isBlank c.toLower = isBlank c :=
  of_toLower (by decide) c

lemma asciiText_injective : Function.Injective asciiText := by
  intro bs cs h
  have hchar : Function.Injective Char.ofUInt8 := fun b c hbc => by
    have hnat : (Char.ofUInt8 b).toNat = (Char.ofUInt8 c).toNat := congrArg Char.toNat hbc
    exact UInt8.toNat_inj.1 hnat
  rw [asciiText, asciiText, ← String.toList_inj, String.toList_ofList, String.toList_ofList] at h
  exact hchar.list_map h

lemma Ascii.isAlphanum_of_isDigit {c : Char} (h : c.isDigit = true) : c.isAlphanum = true :=
  (Bool.or_eq_true _ _).mpr (.inr h)

lemma Percent.toNat_lt_of_isUnreservedChar {c : Char} (h : isUnreservedChar c = true) :
    c.toNat < 0x80 := by
  simp only [isUnreservedChar, Bool.or_eq_true, beq_iff_eq] at h
  rcases h with (((h | rfl) | rfl) | rfl) | rfl
  · have := Ascii.toNat_of_isAlphanum h; omega
  all_goals decide

namespace Utf8

lemma ofUInt8_ofNat_toNat {c : Char} (hc : c.toNat < 0x80) :
    Char.ofUInt8 (UInt8.ofNat c.toNat) = c := Char.toNat_inj.1 (toNat_ofNat (by omega))

lemma utf8EncodeChar_of_lt {c : Char} (hc : c.toNat < 0x80) :
    String.utf8EncodeChar c = [UInt8.ofNat c.toNat] := by
  have hb : (UInt8.ofNat c.toNat).toNat = c.toNat := toNat_ofNat (by omega)
  rw [← utf8EncodeChar_ofUInt8 (by omega), ofUInt8_ofNat_toNat hc]

lemma octetsOf_cons_ascii {c : Char} (hc : c.toNat < 0x80) (cs : List Char) :
    octetsOf (c :: cs) = UInt8.ofNat c.toNat :: octetsOf cs := by
  rw [octetsOf_cons, utf8EncodeChar_of_lt hc]
  rfl

lemma ofNat_lt_iff {c d : Char} (hc : c.toNat < 0x80) (hd : d.toNat < 0x80) :
    UInt8.ofNat c.toNat < UInt8.ofNat d.toNat ↔ c < d := by
  rw [UInt8.lt_iff_toNat_lt, toNat_ofNat (by omega), toNat_ofNat (by omega)]
  exact Iff.rfl

lemma ofNat_inj {c d : Char} (hc : c.toNat < 0x80) (hd : d.toNat < 0x80) :
    UInt8.ofNat c.toNat = UInt8.ofNat d.toNat ↔ c = d := by
  rw [← UInt8.toNat_inj, toNat_ofNat (by omega), toNat_ofNat (by omega), Char.toNat_inj]

lemma octetsOf_lt_iff {cs ds : List Char} (hcs : ∀ c ∈ cs, c.toNat < 0x80)
    (hds : ∀ d ∈ ds, d.toNat < 0x80) : octetsOf cs < octetsOf ds ↔ cs < ds := by
  induction cs generalizing ds with
  | nil =>
    cases ds with
    | nil => simp
    | cons d ds =>
      rw [octetsOf_cons_ascii (hds d List.mem_cons_self)]
      exact ⟨fun _ => List.nil_lt_cons _ _, fun _ => List.nil_lt_cons _ _⟩
  | cons c cs ih =>
    have hc := hcs c List.mem_cons_self
    cases ds with
    | nil => simp
    | cons d ds =>
      have hd := hds d List.mem_cons_self
      rw [octetsOf_cons_ascii hc, octetsOf_cons_ascii hd, List.cons_lt_cons_iff,
        List.cons_lt_cons_iff, ofNat_lt_iff hc hd, ofNat_inj hc hd,
        ih (fun x hx => hcs x (List.mem_cons_of_mem _ hx))
          (fun x hx => hds x (List.mem_cons_of_mem _ hx))]

lemma utf8_lt_iff {s t : String} (hs : ∀ c ∈ s.toList, c.toNat < 0x80)
    (ht : ∀ c ∈ t.toList, c.toNat < 0x80) : utf8 s < utf8 t ↔ s < t := octetsOf_lt_iff hs ht

lemma utf8_intercalate (mark : String) (pieces : List String) :
    utf8 (mark.intercalate pieces) = (utf8 mark).intercalate (pieces.map utf8) := by
  rw [utf8, String.toList_intercalate, Joined.flatMap_intercalate, List.map_map]
  rfl

end Utf8

end SigV4
