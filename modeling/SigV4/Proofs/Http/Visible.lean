import SigV4.Http.Header
import SigV4.Proofs.Http.Headers
import SigV4.Proofs.Text.Ascii
import SigV4.Text.Hex
import SigV4.Time.Stamp

/-!
Texts that a header carries.

A text of visible ASCII characters can be put into a header, and is read back from it as it was.
Digests, time stamps and header names are such texts.
-/

namespace SigV4.Http

/-- A space or a character with a shape, ASCII only. -/
def isVisibleChar (c : Char) : Bool := 32 ≤ c.toNat && c.toNat < 127

def IsVisible (s : String) : Prop := ∀ c ∈ s.toList, isVisibleChar c = true

instance (s : String) : Decidable (IsVisible s) :=
  decidable_of_iff (s.toList.all isVisibleChar = true) List.all_eq_true

lemma isVisibleChar_iff {c : Char} : isVisibleChar c = true ↔ 32 ≤ c.toNat ∧ c.toNat < 127 := by
  simp [isVisibleChar]

lemma IsVisible.append {s t : String} (hs : IsVisible s) (ht : IsVisible t) :
    IsVisible (s ++ t) := by
  intro c hc
  rw [String.toList_append, List.mem_append] at hc
  rcases hc with hc | hc
  · exact hs c hc
  · exact ht c hc

/-! ### Into a header and back -/

/-- A character of a value that reads as text. -/
def isTextChar (c : Char) : Bool := c == '\t' || isVisibleChar c

lemma isTextChar_iff {c : Char} :
    isTextChar c = true ↔ c.toNat = 9 ∨ 32 ≤ c.toNat ∧ c.toNat < 127 := by
  rw [isTextChar, Bool.or_eq_true, isVisibleChar_iff, beq_iff_eq, ← Char.toNat_inj]
  exact Iff.rfl

lemma isTextChar_toLower (c : Char) : isTextChar c.toLower = isTextChar c :=
  Ascii.of_toLower (by decide) c

lemma all_isVisibleOctet_of_isTextChar {s : String} (h : ∀ c ∈ s.toList, isTextChar c = true) :
    (utf8 s).all isVisibleOctet = true := by
  rw [List.all_eq_true, utf8]
  intro b hb
  obtain ⟨c, hc, hbc⟩ := List.mem_flatMap.1 hb
  have hrange := isTextChar_iff.1 (h c hc)
  rw [Utf8.utf8EncodeChar_of_lt (by omega), List.mem_singleton] at hbc
  have hnat : b.toNat = c.toNat := by rw [hbc, Utf8.toNat_ofNat (by omega)]
  simp only [isVisibleOctet, hnat, Bool.or_eq_true, Bool.and_eq_true, decide_eq_true_eq,
    beq_iff_eq]
  omega

lemma all_isVisibleOctet_utf8 {s : String} (h : IsVisible s) :
    (utf8 s).all isVisibleOctet = true :=
  all_isVisibleOctet_of_isTextChar fun c hc => by simp [isTextChar, h c hc]

lemma isTextChar_of_text? {v : HeaderValue} {text : String} (h : v.text? = some text) {c : Char}
    (hc : c ∈ text.toList) : isTextChar c = true := by
  unfold HeaderValue.text? at h
  split at h
  · next hall =>
    cases h
    rw [asciiText, String.toList_ofList] at hc
    obtain ⟨b, hb, rfl⟩ := List.mem_map.1 hc
    have hvisible := List.all_eq_true.1 hall b hb
    have hnat : (Char.ofUInt8 b).toNat = b.toNat := rfl
    simp only [isVisibleOctet, Bool.or_eq_true, Bool.and_eq_true, decide_eq_true_eq,
      beq_iff_eq] at hvisible
    rw [isTextChar_iff, hnat]
    omega
  · cases h

lemma asciiText_utf8_of_all {s : String} (h : (utf8 s).all isVisibleOctet = true) :
    asciiText (utf8 s) = s := by
  have hchars : ∀ cs : List Char, (∀ b ∈ Utf8.octetsOf cs, b.toNat < 0x80) →
      (Utf8.octetsOf cs).map Char.ofUInt8 = cs := by
    intro cs
    induction cs with
    | nil => intro _; rfl
    | cons c cs ih =>
      intro hcs
      rw [Utf8.octetsOf_cons] at hcs
      obtain ⟨b, hb⟩ := List.exists_mem_of_ne_nil _ (String.utf8EncodeChar_ne_nil (c := c))
      have hlow := hcs b (List.mem_append_left _ hb)
      rw [Utf8.eq_ofUInt8_of_mem hlow hb, Utf8.octetsOf_cons_mark hlow, List.map_cons,
        ih fun d hd => hcs d (List.mem_append_right _ hd)]
  rw [asciiText, utf8, ← String.toList_inj, String.toList_ofList]
  refine hchars _ fun b hb => ?_
  have hvisible := List.all_eq_true.1 h b hb
  simp only [isVisibleOctet, Bool.or_eq_true, Bool.and_eq_true, decide_eq_true_eq,
    beq_iff_eq] at hvisible
  omega

lemma asciiText_utf8 {s : String} (h : IsVisible s) : asciiText (utf8 s) = s :=
  asciiText_utf8_of_all (all_isVisibleOctet_utf8 h)

lemma isValueOctet_of_isVisibleOctet {b : UInt8} (h : isVisibleOctet b = true) :
    isValueOctet b = true := by
  simp only [isVisibleOctet, isValueOctet, Bool.or_eq_true, Bool.and_eq_true, decide_eq_true_eq,
    bne_iff_ne, beq_iff_eq] at h ⊢
  omega

lemma text?_of_isVisible {s : String} {v : HeaderValue} (h : IsVisible s)
    (hv : HeaderValue.ofText? s = some v) : v.text? = some s := by
  rw [HeaderValue.text?, (HeaderValue.ofText?_eq_some hv).1, if_pos (all_isVisibleOctet_utf8 h),
    asciiText_utf8 h]

lemma asciiText_of_isReadable {s : String} {v : HeaderValue} (hv : HeaderValue.ofText? s = some v)
    (h : v.isReadable = true) : asciiText v.octets = s := by
  have hoctets := (HeaderValue.ofText?_eq_some hv).1
  rw [HeaderValue.isReadable, hoctets] at h
  rw [hoctets, asciiText_utf8_of_all h]

lemma isReadable_of_isVisible {s : String} {v : HeaderValue} (h : IsVisible s)
    (hv : HeaderValue.ofText? s = some v) : v.isReadable = true := by
  rw [HeaderValue.isReadable, (HeaderValue.ofText?_eq_some hv).1]
  exact all_isVisibleOctet_utf8 h

lemma exists_ofText?_of_isVisible {s : String} (h : IsVisible s) :
    ∃ v, HeaderValue.ofText? s = some v := by
  have hvalue : (utf8 s).all isValueOctet = true :=
    List.all_eq_true.2 fun b hb =>
      isValueOctet_of_isVisibleOctet (List.all_eq_true.1 (all_isVisibleOctet_utf8 h) b hb)
  exact ⟨_, dif_pos hvalue⟩

/-! ### Visible texts -/

lemma isVisibleChar_of_isTokenChar {c : Char} (h : isTokenChar c = true) :
    isVisibleChar c = true := by
  simp only [isTokenChar, Bool.or_eq_true, beq_iff_eq] at h
  rcases h with ((((((((((((((h | rfl) | rfl) | rfl) | rfl) | rfl) | rfl) | rfl) | rfl) | rfl) |
    rfl) | rfl) | rfl) | rfl) | rfl) | rfl
  · have := Ascii.toNat_of_isAlphanum h
    exact isVisibleChar_iff.2 (by omega)
  all_goals decide

lemma isTokenChar_of_toLower {c : Char} (h : isNameChar c.toLower = true) :
    isTokenChar c = true := by
  by_cases hc : c.isUpper = true
  · simp [isTokenChar, Ascii.isAlphanum_of_isUpper hc]
  · rw [Ascii.toLower_eq_self (by simpa using hc), isNameChar, Bool.and_eq_true] at h
    exact h.1

lemma HeaderName.isTokenChar_of_ofText? {s : String} {n : HeaderName} (h : ofText? s = some n)
    {c : Char} (hc : c ∈ s.toList) : isTokenChar c = true := by
  refine isTokenChar_of_toLower (List.all_eq_true.1 n.isName.2.2 _ ?_)
  rw [text_of_ofText? h, Ascii.toList_lower]
  exact List.mem_map_of_mem hc

lemma HeaderName.isVisible_of_ofText? {s : String} {n : HeaderName} (h : ofText? s = some n) :
    IsVisible s := fun _ hc => isVisibleChar_of_isTokenChar (isTokenChar_of_ofText? h hc)

lemma HeaderName.isVisible_text (n : HeaderName) : IsVisible n.text :=
  isVisible_of_ofText? (ofText?_text n)

lemma HeaderName.utf8_text_lt {m n : HeaderName} (h : m.text < n.text) :
    utf8 m.text < utf8 n.text := by
  have hascii : ∀ n : HeaderName, ∀ ch ∈ n.text.toList, ch.toNat < 0x80 := fun n ch hch => by
    have := isVisibleChar_iff.1 (n.isVisible_text ch hch)
    omega
  exact (Utf8.utf8_lt_iff (hascii m) (hascii n)).2 h

end Http

namespace Hex

lemma of_mem_encode {p : Char → Bool} (hp : ∀ n < 16, p (lowerDigit n) = true) {bs : Octets}
    {c : Char} (h : c ∈ (encode bs).toList) : p c = true := by
  rw [encode, String.toList_ofList, digits, List.mem_flatMap] at h
  obtain ⟨b, -, hc⟩ := h
  have hb := b.toNat_lt
  rw [List.mem_cons, List.mem_singleton] at hc
  rcases hc with rfl | rfl
  · exact hp _ (by omega)
  · exact hp _ (by omega)

lemma isTokenChar_of_mem_encode {bs : Octets} {c : Char} (h : c ∈ (encode bs).toList) :
    Http.isTokenChar c = true := of_mem_encode (by decide) h

lemma isVisible_encode (bs : Octets) : Http.IsVisible (encode bs) :=
  fun _ hc => Http.isVisibleChar_of_isTokenChar (isTokenChar_of_mem_encode hc)

end Hex

/-! ### Time stamps -/

namespace Decimal

lemma digit_isDigit : ∀ n < 10, (digit n).isDigit = true := by decide

lemma isDigit_of_mem_fixed {width n : Nat} {c : Char} (h : c ∈ fixed width n) :
    c.isDigit = true := by
  induction width generalizing n with
  | zero => cases h
  | succ w ih =>
    rw [fixed, List.mem_append, List.mem_singleton] at h
    rcases h with h | rfl
    · exact ih h
    · exact digit_isDigit _ (Nat.mod_lt _ (by decide))

lemma isDigit_of_mem_atLeast {width n : Nat} {c : Char} (h : c ∈ atLeast width n) :
    c.isDigit = true := by
  unfold atLeast at h
  simp only at h
  split at h
  · exact isDigit_of_mem_fixed h
  · exact Nat.isDigit_of_mem_toDigits (by decide) (by decide) h

end Decimal

namespace Instant

/-- A character of a date: a digit, or a sign before the year. -/
def isDateChar (c : Char) : Bool := c.isDigit || c == '+' || c == '-'

lemma isDateChar_of_mem_yearText {year : Int} {c : Char} (h : c ∈ yearText year) :
    isDateChar c = true := by
  unfold yearText at h
  split at h
  · simp [isDateChar, Decimal.isDigit_of_mem_fixed h]
  · rcases List.mem_cons.1 h with rfl | h
    · split <;> decide
    · simp [isDateChar, Decimal.isDigit_of_mem_atLeast h]

lemma isDateChar_of_mem_dateStamp {t : Instant} {c : Char} (h : c ∈ t.dateStamp.toList) :
    isDateChar c = true := by
  rw [dateStamp, String.toList_ofList, List.mem_append, List.mem_append] at h
  rcases h with (h | h) | h
  · exact isDateChar_of_mem_yearText h
  · simp [isDateChar, Decimal.isDigit_of_mem_fixed h]
  · simp [isDateChar, Decimal.isDigit_of_mem_fixed h]

lemma not_mem_dateStamp (t : Instant) {c : Char} (hc : isDateChar c = false) :
    c ∉ t.dateStamp.toList := fun h => by
  rw [isDateChar_of_mem_dateStamp h] at hc
  cases hc

lemma isTokenChar_of_isDateChar {c : Char} (h : isDateChar c = true) :
    Http.isTokenChar c = true := by
  simp only [isDateChar, Bool.or_eq_true, beq_iff_eq] at h
  rcases h with (h | rfl) | rfl
  · simp [Http.isTokenChar, Ascii.isAlphanum_of_isDigit h]
  · decide
  · decide

lemma isVisible_dateStamp (t : Instant) : Http.IsVisible t.dateStamp := fun _ hc =>
  Http.isVisibleChar_of_isTokenChar (isTokenChar_of_isDateChar (isDateChar_of_mem_dateStamp hc))

lemma isVisible_stamp (t : Instant) : Http.IsVisible t.stamp := by
  refine (isVisible_dateStamp t).append fun c hc => ?_
  rw [String.toList_ofList] at hc
  simp only [List.mem_append, List.mem_cons, List.not_mem_nil, or_false] at hc
  have hdigit : ∀ width n, c ∈ Decimal.fixed width n → Http.isVisibleChar c = true := by
    intro width n h
    refine Http.isVisibleChar_of_isTokenChar (isTokenChar_of_isDateChar ?_)
    simp [isDateChar, Decimal.isDigit_of_mem_fixed h]
  rcases hc with (rfl | (hc | hc) | hc) | rfl
  · decide
  · exact hdigit _ _ hc
  · exact hdigit _ _ hc
  · exact hdigit _ _ hc
  · decide

lemma exists_stamp_eq (t : Instant) :
    ∃ clock, t.stamp = t.dateStamp ++ "T" ++ clock ∧ 'T' ∉ clock.toList := by
  refine ⟨String.ofList (Decimal.fixed 2 t.hour ++ Decimal.fixed 2 t.minute ++
    Decimal.fixed 2 t.second ++ ['Z']), ?_, fun h => ?_⟩
  · rw [stamp, String.append_assoc, ← String.toList_inj]
    simp [String.toList_append]
  · have hdigit : ∀ n, 'T' ∉ Decimal.fixed 2 n := fun n hmem =>
      absurd (Decimal.isDigit_of_mem_fixed hmem) (by decide)
    simp [hdigit] at h

end Instant

end SigV4
