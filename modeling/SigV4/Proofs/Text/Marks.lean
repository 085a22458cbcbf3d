import SigV4.Proofs.Text.Joined
import SigV4.Proofs.Text.Utf8

/-!
Cutting a text at an ASCII mark.

No octet of a character beyond ASCII is that of an ASCII character. So a text is cut at a mark
in the same places whether it is taken as characters or as octets.
-/

namespace SigV4.Utf8

variable {b : UInt8}

def octetsOf (cs : List Char) : Octets := cs.flatMap String.utf8EncodeChar

@[simp] lemma octetsOf_nil : octetsOf [] = [] := rfl

lemma octetsOf_cons (c : Char) (cs : List Char) :
    octetsOf (c :: cs) = String.utf8EncodeChar c ++ octetsOf cs := List.flatMap_cons

lemma octetsOf_cons_mark (hb : b.toNat < 0x80) (cs : List Char) :
    octetsOf (Char.ofUInt8 b :: cs) = b :: octetsOf cs := by
  rw [octetsOf_cons, utf8EncodeChar_ofUInt8 hb, List.singleton_append]

lemma not_mem_utf8EncodeChar (hb : b.toNat < 0x80) {c : Char} (hc : c ≠ Char.ofUInt8 b) :
    b ∉ String.utf8EncodeChar c := fun h => hc (eq_ofUInt8_of_mem hb h)

lemma not_mem_utf8 (hb : b.toNat < 0x80) {s : String} (hs : Char.ofUInt8 b ∉ s.toList) :
    b ∉ utf8 s := fun h => by
  obtain ⟨c, hc, hbc⟩ := List.mem_flatMap.1 h
  exact hs (eq_ofUInt8_of_mem hb hbc ▸ hc)

lemma splitOn_append_of_not_mem {u : Octets} (hu : b ∉ u) (bs : Octets) :
    (u ++ bs).splitOn b = (bs.splitOn b).modifyHead (u ++ ·) := by
  induction u with
  | nil =>
    obtain ⟨p, ps, hp⟩ := List.exists_cons_of_ne_nil (List.splitOn_ne_nil b bs)
    simp [hp]
  | cons a u ih =>
    have ha : (a == b) = false := beq_eq_false_iff_ne.2 fun h => hu (h ▸ List.mem_cons_self)
    rw [List.cons_append, List.splitOn_cons_eq_if_modifyHead, ha,
      ih fun h => hu (List.mem_cons_of_mem _ h)]
    obtain ⟨p, ps, hp⟩ := List.exists_cons_of_ne_nil (List.splitOn_ne_nil b bs)
    simp [hp]

lemma splitOn_octetsOf (hb : b.toNat < 0x80) (cs : List Char) :
    (octetsOf cs).splitOn b = (cs.splitOn (Char.ofUInt8 b)).map octetsOf := by
  induction cs with
  | nil => rfl
  | cons c cs ih =>
    rw [List.splitOn_cons_eq_if_modifyHead]
    by_cases hc : c = Char.ofUInt8 b
    · subst hc
      rw [octetsOf_cons_mark hb, List.splitOn_cons_eq_if_modifyHead, ih]
      simp
    · obtain ⟨p, ps, hp⟩ := List.exists_cons_of_ne_nil (List.splitOn_ne_nil (Char.ofUInt8 b) cs)
      rw [octetsOf_cons, splitOn_append_of_not_mem (not_mem_utf8EncodeChar hb hc), ih, hp]
      simp [hc, octetsOf_cons]

lemma takeWhile_append_of_not_mem {u : Octets} (hu : b ∉ u) (bs : Octets) :
    (u ++ bs).takeWhile (· != b) = u ++ bs.takeWhile (· != b) :=
  List.takeWhile_append_of_pos fun a ha => by
    simp only [bne_iff_ne]
    rintro rfl
    exact hu ha

lemma dropWhile_append_of_not_mem {u : Octets} (hu : b ∉ u) (bs : Octets) :
    (u ++ bs).dropWhile (· != b) = bs.dropWhile (· != b) :=
  List.dropWhile_append_of_pos fun a ha => by
    simp only [bne_iff_ne]
    rintro rfl
    exact hu ha

lemma takeWhile_octetsOf (hb : b.toNat < 0x80) (cs : List Char) :
    (octetsOf cs).takeWhile (· != b) = octetsOf (cs.takeWhile (· != Char.ofUInt8 b)) := by
  induction cs with
  | nil => rfl
  | cons c cs ih =>
    by_cases hc : c = Char.ofUInt8 b
    · subst hc
      rw [octetsOf_cons_mark hb]
      simp
    · rw [octetsOf_cons, takeWhile_append_of_not_mem (not_mem_utf8EncodeChar hb hc), ih]
      simp [hc, octetsOf_cons]

lemma dropWhile_octetsOf (hb : b.toNat < 0x80) (cs : List Char) :
    (octetsOf cs).dropWhile (· != b) = octetsOf (cs.dropWhile (· != Char.ofUInt8 b)) := by
  induction cs with
  | nil => rfl
  | cons c cs ih =>
    by_cases hc : c = Char.ofUInt8 b
    · subst hc
      rw [octetsOf_cons_mark hb]
      simp [octetsOf_cons_mark hb]
    · rw [octetsOf_cons, dropWhile_append_of_not_mem (not_mem_utf8EncodeChar hb hc), ih]
      simp [hc]

end SigV4.Utf8
