import Mathlib.Data.List.DropRight
import SigV4.Proofs.Signature.Integrity
import SigV4.Proofs.Text.Joined

/-!
Announced trailers.

A trailer is announced by adding its name as it is, and found by reading a list: values are cut at
commas, blanks around the parts are dropped, and letter case does not count. Writer and reader agree
on the names that can be part of a list. Any other name is not found where it was added, so it is
added every time, or it is not read at all.
-/

namespace SigV4.Integrity

open Checksum (Directive)
open Http (HeaderName HeaderValue)

variable {d : Directive} {r s : Request} {name text : String} {vs : List HeaderValue}

/-! ### Blanks around a text -/

lemma trim_eq (cs : List Char) :
    trim cs = (cs.dropWhile Ascii.isBlank).rdropWhile Ascii.isBlank := rfl

lemma trim_sublist (cs : List Char) : (trim cs).Sublist cs := by
  rw [trim_eq]
  exact (List.rdropWhile_prefix _ _).sublist.trans (List.dropWhile_suffix _).sublist

lemma trim_eq_self {cs : List Char} (h : ∀ c ∈ cs, Ascii.isBlank c = false) : trim cs = cs := by
  have hdrop : ∀ ds : List Char, (∀ c ∈ ds, Ascii.isBlank c = false) →
      ds.dropWhile Ascii.isBlank = ds := by
    intro ds hds
    cases ds with
    | nil => rfl
    | cons d ds => simp [hds d List.mem_cons_self]
  rw [trim, hdrop cs h, hdrop cs.reverse fun c hc => h c (List.mem_reverse.1 hc),
    List.reverse_reverse]

lemma trim_trim (cs : List Char) : trim (trim cs) = trim cs := by
  have hfront : (trim cs).dropWhile Ascii.isBlank = trim cs := by
    cases hcs : trim cs with
    | nil => rfl
    | cons c rest =>
      obtain ⟨after, hafter⟩ : trim cs <+: cs.dropWhile Ascii.isBlank :=
        List.rdropWhile_prefix _ _
      have hfirst := List.head?_dropWhile_not Ascii.isBlank cs
      rw [← hafter, hcs, List.cons_append, List.head?_cons] at hfirst
      exact List.dropWhile_cons_of_neg (by simpa using hfirst)
  rw [trim_eq (trim cs), hfront, trim_eq, List.rdropWhile_idempotent]

lemma trim_map_toLower (cs : List Char) :
    trim (cs.map Char.toLower) = (trim cs).map Char.toLower := by
  have hblank : Ascii.isBlank ∘ Char.toLower = Ascii.isBlank := funext Ascii.isBlank_toLower
  rw [trim, trim, List.dropWhile_map, hblank, ← List.map_reverse, List.dropWhile_map, hblank,
    List.map_reverse]

/-! ### Names that a list can hold -/

/-- Some part of the values, cut at commas and without blanks around it, is that name, in some
letter case. -/
def IsNamedIn (name : String) (vs : List HeaderValue) : Prop :=
  ∃ v ∈ vs, ∃ text, v.text? = some text ∧
    ∃ part ∈ text.toList.splitOn ',', Ascii.sameLetters (String.ofList (trim part)) name = true

/-- A name that can be part of a list: it reads as text, has no comma and no blanks around it. -/
structure IsListable (name : String) : Prop where
  text : ∀ c ∈ name.toList, Http.isTextChar c = true
  no_comma : ',' ∉ name.toList
  trimmed : trim name.toList = name.toList

lemma map_toLower_eq {s t : String} (h : Ascii.sameLetters s t = true) :
    s.toList.map Char.toLower = t.toList.map Char.toLower := by
  rw [← Ascii.toList_lower, ← Ascii.toList_lower, eq_of_beq h]

lemma IsListable.of_sameLetters {s t : String} (hs : IsListable s)
    (h : Ascii.sameLetters s t = true) : IsListable t := by
  have hlower := map_toLower_eq h
  have hmem {c : Char} (hc : c ∈ t.toList) : ∃ b ∈ s.toList, b.toLower = c.toLower := by
    rw [← List.mem_map, hlower]
    exact List.mem_map_of_mem hc
  refine ⟨fun c hc => ?_, fun hc => ?_, ?_⟩
  · obtain ⟨b, hb, hbc⟩ := hmem hc
    rw [← Http.isTextChar_toLower, ← hbc, Http.isTextChar_toLower, hs.text b hb]
  · obtain ⟨b, hb, hbc⟩ := hmem hc
    have hcomma : (b == ',') = true := by
      rw [← Ascii.of_toLower (p := (· == ',')) (by decide) b, hbc]
      rfl
    exact hs.no_comma (eq_of_beq hcomma ▸ hb)
  · have htrim : (trim t.toList).map Char.toLower = t.toList.map Char.toLower := by
      rw [← trim_map_toLower, ← hlower, trim_map_toLower, hs.trimmed]
    have hlength := congrArg List.length htrim
    rw [List.length_map, List.length_map] at hlength
    exact (trim_sublist _).eq_of_length hlength

lemma isListable_part {v : HeaderValue} {part : List Char} (hv : v.text? = some text)
    (hpart : part ∈ text.toList.splitOn ',') : IsListable (String.ofList (trim part)) := by
  have hmem {c : Char} (hc : c ∈ trim part) : c ∈ part := (trim_sublist part).subset hc
  refine ⟨fun c hc => ?_, fun hc => ?_, ?_⟩
  · rw [String.toList_ofList] at hc
    exact Http.isTextChar_of_text? hv (Joined.mem_of_mem_splitOnP hpart (hmem hc))
  · rw [String.toList_ofList] at hc
    exact Joined.not_mem_of_mem_splitOn hpart (hmem hc)
  · rw [String.toList_ofList, trim_trim]

lemma isListable_of_isNamedIn (h : IsNamedIn name vs) : IsListable name := by
  obtain ⟨v, -, text, hv, part, hpart, hname⟩ := h
  exact (isListable_part hv hpart).of_sameLetters hname

lemma IsListable.announces_self (h : IsListable name) : announces name name = true := by
  rw [announces, List.splitOn_eq_singleton h.no_comma, List.any_cons, h.trimmed,
    String.ofList_toList]
  simp [Ascii.sameLetters]

lemma IsListable.text?_eq {v : HeaderValue} (h : IsListable name)
    (hv : HeaderValue.ofText? name = some v) : v.text? = some name := by
  have hall := Http.all_isVisibleOctet_of_isTextChar h.text
  rw [HeaderValue.text?, (HeaderValue.ofText?_eq_some hv).1, if_pos hall,
    Http.asciiText_utf8_of_all hall]

lemma isListable_of_ofText? {n : HeaderName} (h : HeaderName.ofText? name = some n) :
    IsListable name := by
  have htoken : ∀ c ∈ name.toList, Http.isTokenChar c = true := fun c hc =>
    HeaderName.isTokenChar_of_ofText? h hc
  refine ⟨fun c hc => ?_, fun hc => absurd (htoken _ hc) (by decide), trim_eq_self fun c hc => ?_⟩
  · simp [Http.isTextChar, Http.isVisibleChar_of_isTokenChar (htoken c hc)]
  · by_contra hb
    have hb : Ascii.isBlank c = true := by simpa using hb
    simp only [Ascii.isBlank, Bool.or_eq_true, beq_iff_eq] at hb
    have := htoken c hc
    rcases hb with (((rfl | rfl) | rfl) | rfl) | rfl <;> revert this <;> decide

lemma isNamedIn_of_isAnnounced (h : isAnnounced name vs = .ok true) : IsNamedIn name vs := by
  induction vs with
  | nil => cases h
  | cons v vs ih =>
    obtain ⟨text, hread, h⟩ := Outcome.bind_eq_ok.1 h
    split at h
    · next hannounced =>
      obtain ⟨part, hpart, hname⟩ := List.any_eq_true.1 hannounced
      exact ⟨v, List.mem_cons_self, text, Request.readValue_eq_ok.1 hread, part, hpart, hname⟩
    · obtain ⟨w, hw, rest⟩ := ih h
      exact ⟨w, List.mem_cons_of_mem v hw, rest⟩

lemma isAnnounced_of_not_isNamedIn (hread : ∀ v ∈ vs, v.isReadable = true)
    (h : ¬ IsNamedIn name vs) : isAnnounced name vs = .ok false := by
  induction vs with
  | nil => rfl
  | cons v vs ih =>
    obtain ⟨text, htext⟩ : ∃ text, v.text? = some text :=
      ⟨_, if_pos (hread v List.mem_cons_self)⟩
    have hv : ¬ announces name text = true := by
      intro hannounced
      obtain ⟨part, hpart, hname⟩ := List.any_eq_true.1 hannounced
      exact h ⟨v, List.mem_cons_self, text, htext, part, hpart, hname⟩
    rw [isAnnounced, Request.readValue_eq_ok.2 htext, Outcome.ok_bind, if_neg hv]
    refine ih (fun w hw => hread w (List.mem_cons_of_mem v hw)) ?_
    rintro ⟨w, hw, rest⟩
    exact h ⟨w, List.mem_cons_of_mem v hw, rest⟩

/-! ### The announcement -/

lemma isAnnounced_iff_isListable (h : (announceTrailer d r).result = .ok s) :
    isAnnounced d.headerName (s.headers.values .trailer) = .ok true ↔ IsListable d.headerName := by
  refine ⟨fun hfound => isListable_of_isNamedIn (isNamedIn_of_isAnnounced hfound), fun hname => ?_⟩
  rcases announceTrailer_eq_ok h with ⟨hannounced, rfl⟩ | ⟨v, hannounced, hv, rfl⟩
  · exact hannounced
  · rw [Http.Headers.values_append_self]
    exact isAnnounced_append hannounced (hname.text?_eq hv) hname.announces_self

lemma isAnnounced_of_announceTrailer {n : HeaderName}
    (hn : HeaderName.ofText? d.headerName = some n) (h : (announceTrailer d r).result = .ok s) :
    isAnnounced d.headerName (s.headers.values .trailer) = .ok true :=
  (isAnnounced_iff_isListable h).2 (isListable_of_ofText? hn)

lemma announceTrailer_spec (h : (announceTrailer d r).result = .ok s) :
    r.SameBut [.trailer] s ∧ ∃ added, added.length ≤ 1 ∧
      s.headers.values .trailer = r.headers.values .trailer ++ added := by
  rcases announceTrailer_eq_ok h with ⟨-, rfl⟩ | ⟨v, -, -, rfl⟩
  · exact ⟨.refl _ _, [], by simp, by simp⟩
  · exact ⟨.append_right r .trailer v, [v], by simp, by simp⟩

lemma announceTrailer_of_missing {v : HeaderValue}
    (hmissing : isAnnounced d.headerName (r.headers.values .trailer) = .ok false)
    (hv : HeaderValue.ofText? d.headerName = some v) :
    (announceTrailer d r).result = .ok { r with headers := r.headers.append .trailer v } := by
  rw [announceTrailer_result, hmissing, Outcome.ok_bind, if_neg Bool.false_ne_true]
  exact Request.addText_eq_ok.2 ⟨v, hv, rfl⟩

lemma announceTrailer_eq_self_iff :
    (announceTrailer d s).result = .ok s ↔
      isAnnounced d.headerName (s.headers.values .trailer) = .ok true := by
  constructor
  · intro h
    rcases announceTrailer_eq_ok h with ⟨hannounced, -⟩ | ⟨v, -, -, hs⟩
    · exact hannounced
    · have hlength := congrArg (fun t : Request => (t.headers.values .trailer).length) hs
      simp at hlength
  · intro h
    rw [announceTrailer_result, h, Outcome.ok_bind, if_pos rfl]

/-- **What announcing a trailer does.** No other header is touched, and the list it is added to
grows by one value at most. The list then names the trailer, and announcing it once more changes
nothing, exactly for the names that can be part of a list. -/
theorem announced_iff_isListable (hplace : d.placement = .trailer)
    (h : (integrate d r).result = .ok s) :
    r.SameBut [.trailer] s ∧
      (∃ added, added.length ≤ 1 ∧
        s.headers.values .trailer = r.headers.values .trailer ++ added) ∧
      (IsNamedIn d.headerName (s.headers.values .trailer) ↔ IsListable d.headerName) ∧
      ((integrate d s).result = .ok s ↔ IsListable d.headerName) := by
  have hintegrate (t : Request) : integrate d t = announceTrailer d t := by
    rw [integrate, hplace]
  rw [hintegrate] at h ⊢
  have hfound := isAnnounced_iff_isListable h
  obtain ⟨hsame, hadded⟩ := announceTrailer_spec h
  refine ⟨hsame, hadded, ⟨isListable_of_isNamedIn, fun hname => ?_⟩, ?_⟩
  · exact isNamedIn_of_isAnnounced (hfound.2 hname)
  · exact announceTrailer_eq_self_iff.trans hfound

/-- A name with a blank inside, announced after another trailer. -/
theorem announced_of_listable :
    let other : HeaderValue := ⟨utf8 "x-note , x-sum", true, by decide⟩
    let r := Request.ofHead ⟨.get, .absolute .https ⟨"h"⟩ ⟨"/", none⟩, ⟨[(.trailer, other)]⟩⟩
      (.streaming none)
    let d := (Directive.of .sha256 .trailer).withHeaderName "X Sum"
    ∃ s, (integrate d r).result = .ok s ∧ IsNamedIn d.headerName (s.headers.values .trailer) ∧
      (integrate d s).result = .ok s := by
  intro other r d
  let name : HeaderValue := ⟨utf8 "x sum", false, by decide⟩
  have h : (integrate d r).result = .ok { r with headers := r.headers.append .trailer name } :=
    announceTrailer_of_missing (by decide) (by decide)
  have htext : d.headerName.toList.all Http.isTextChar = true := by decide
  have hname : IsListable d.headerName := ⟨List.all_eq_true.1 htext, by decide, by decide⟩
  obtain ⟨-, -, hnamed, hagain⟩ := announced_iff_isListable rfl h
  exact ⟨_, h, hnamed.2 hname, hagain.2 hname⟩

/-- A name with a comma is not found where it was announced, and is announced again. -/
theorem announced_twice_of_comma :
    let r := Request.ofHead ⟨.get, .absolute .https ⟨"h"⟩ ⟨"/", none⟩, .empty⟩ (.streaming none)
    let d := (Directive.of .crc32 .trailer).withHeaderName "a,b"
    let name : HeaderValue := ⟨utf8 "a,b", false, by decide⟩
    ∃ s t, (integrate d r).result = .ok s ∧ ¬ IsNamedIn d.headerName (s.headers.values .trailer) ∧
      (integrate d s).result = .ok t ∧ s.headers.values .trailer = [name] ∧
      t.headers.values .trailer = [name, name] := by
  intro r d name
  let s : Request := { r with headers := r.headers.append .trailer name }
  have once : (integrate d r).result = .ok s := announceTrailer_of_missing (by rfl) (by decide)
  have hlost (vs : List HeaderValue) : ¬ IsNamedIn d.headerName vs := fun h =>
    (isListable_of_isNamedIn h).no_comma (by decide)
  have twice : (integrate d s).result =
      .ok { s with headers := s.headers.append .trailer name } :=
    announceTrailer_of_missing (isAnnounced_of_not_isNamedIn (by decide) (hlost _)) (by decide)
  exact ⟨_, _, once, hlost _, twice, by decide, by decide⟩

end SigV4.Integrity
