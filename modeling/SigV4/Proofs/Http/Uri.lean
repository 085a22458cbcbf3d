import SigV4.Http.Uri.Reader
import SigV4.Proofs.Outcome
import SigV4.Proofs.Text.Utf8

/-!
Request targets with what is missing in them.

Where a target has no path, a slash stands in for it, and plain HTTP for the scheme that an
authority then needs. The completed target has both written out. Every part that a request
takes from a target is the same in the completed one; the text is another one only for a bare
authority, and for the target without any text, which is never read.
-/

namespace SigV4.Http

lemma PathAndQuery.pathOrSlash_ne_empty (p : PathAndQuery) : p.pathOrSlash ≠ "" := by
  unfold pathOrSlash
  split
  · decide
  · assumption

lemma PathAndQuery.text_ne_empty (p : PathAndQuery) : p.text ≠ "" := by
  unfold text
  split
  · exact p.pathOrSlash_ne_empty
  · simp [p.pathOrSlash_ne_empty]

namespace Uri

variable {u : Uri} {p : PathAndQuery}

/-- The target with a slash written out where it has no path. -/
def completed (u : Uri) : Uri :=
  match u.target?, u.authority? with
  | some _, _ => u
  | none, some a => absolute .http a ⟨"/", none⟩
  | none, none => origin ⟨"/", none⟩

lemma completed_of_target? (h : u.target? = some p) : u.completed = u := by
  unfold completed
  rw [h]

lemma completed_of_authority? {a : Authority} (h : u.target? = none)
    (ha : u.authority? = some a) : u.completed = absolute .http a ⟨"/", none⟩ := by
  unfold completed
  rw [h, ha]

lemma completed_of_none (h : u.target? = none) (ha : u.authority? = none) :
    u.completed = origin ⟨"/", none⟩ := by
  unfold completed
  rw [h, ha]

lemma scheme?_eq_none (h : u.target? = none) : u.scheme? = none := by
  cases u with
  | origin p => rfl
  | authority a => rfl
  | absolute s a p => cases h

/-- **The completed target has the same parts**, with the slash and plain HTTP that stood in for
missing ones. -/
lemma parts_completed (u : Uri) :
    u.completed.target? = some (u.target?.getD ⟨"/", none⟩) ∧
      u.completed.authority? = u.authority? ∧
      u.completed.scheme?.getD .http = u.scheme?.getD .http := by
  cases h : u.target? with
  | some p =>
    rw [completed_of_target? h, h]
    exact ⟨rfl, rfl, rfl⟩
  | none =>
    rw [scheme?_eq_none h]
    cases ha : u.authority? with
    | some a =>
      rw [completed_of_authority? h ha]
      exact ⟨rfl, rfl, rfl⟩
    | none =>
      rw [completed_of_none h ha]
      exact ⟨rfl, rfl, rfl⟩

lemma text_origin_ne_empty (h : ¬(p.path = "" ∧ p.query = none)) : (origin p).text ≠ "" := by
  simp [text, target?, h, p.text_ne_empty]

/-- **Only a bare authority and a target without text have no path.** -/
lemma target?_eq_none_iff : u.target? = none ↔ u.text = "" ∨ ∃ a, u = authority a := by
  cases u with
  | origin p =>
    by_cases h : p.path = "" ∧ p.query = none
    · simp [target?, text, h]
    · simp [target?, h, text_origin_ne_empty h]
  | authority a => simp [target?]
  | absolute s a p => simp [target?, text]

lemma completed_eq_self (hauthority : ∀ a, u ≠ authority a) (htext : u.text ≠ "") :
    u.completed = u := by
  cases h : u.target? with
  | some p => exact completed_of_target? h
  | none =>
    rcases target?_eq_none_iff.1 h with hempty | ⟨a, ha⟩
    · exact absurd hempty htext
    · exact absurd ha (hauthority a)

lemma text_completed_ne_empty (u : Uri) : u.completed.text ≠ "" := fun hempty => by
  have hnone := target?_eq_none_iff.2 (.inl hempty)
  rw [u.parts_completed.1] at hnone
  cases hnone

lemma text_completed_eq_iff (u : Uri) :
    u.completed.text = u.text ↔ u.text ≠ "" ∧ ∀ a, u ≠ authority a := by
  constructor
  · intro hsame
    refine ⟨hsame ▸ u.text_completed_ne_empty, ?_⟩
    rintro a rfl
    -- Scheme and slash make the text of an authority longer.
    have hlength := congrArg String.length hsame
    simp [completed, target?, authority?, text, PathAndQuery.text, PathAndQuery.pathOrSlash,
      Scheme.http] at hlength
    have hslash : "/".length = 1 := by decide
    omega
  · rintro ⟨htext, hauthority⟩
    rw [completed_eq_self hauthority htext]

end Uri

/-! ### What is read has a text -/

lemma PathAndQuery.legalText_ne_empty {legal : UInt8 → Bool} {bs : Octets} {s : String}
    (hbs : bs ≠ []) (h : legalText legal bs = .ok s) : s ≠ "" := by
  unfold legalText at h
  split at h
  · cases hdecode : Utf8.decode bs with
    | error e => rw [hdecode] at h; cases h
    | ok t =>
      rw [hdecode] at h
      cases h
      exact Utf8.decode_ne_empty hbs hdecode
  · cases h

lemma PathAndQuery.path_ne_empty_of_scan {b : UInt8} {bs : Octets} {p : PathAndQuery}
    (hb : isMark '/' b = true) (h : scan (b :: bs) = .ok p) : p.path ≠ "" := by
  have hslash : Char.ofUInt8 b = '/' := by simpa [isMark] using hb
  have hbegins : ∃ rest, ((b :: bs).takeWhile fun b => !isMark '#' b).takeWhile
      (fun b => !isMark '?' b) = b :: rest := by
    simp [isMark, hslash]
  obtain ⟨rest, hrest⟩ := hbegins
  obtain ⟨path, hpath, h⟩ := Outcome.bind_eq_ok.1 h
  have hne : path ≠ "" := legalText_ne_empty (by rw [hrest]; simp) hpath
  split at h
  · cases h; exact hne
  · obtain ⟨query, -, h⟩ := Outcome.bind_eq_ok.1 h
    cases h; exact hne

lemma Authority.name_ne_nil_of_split {bs name rest : Octets} (h : split bs = .ok (name, rest))
    (hrest : rest.isEmpty = true) : name ≠ [] := by
  unfold split at h
  split at h
  · cases h
  · next hbs =>
    obtain ⟨seen, -, h⟩ := Outcome.bind_eq_ok.1 h
    split at h
    · cases h
      intro hname
      have happend := List.takeWhile_append_dropWhile (p := fun b => !isEnd b) (l := bs)
      rw [hname, List.isEmpty_iff.1 hrest] at happend
      exact hbs (by rw [← happend]; rfl)
    · cases h

lemma asciiText_ne_empty {bs : Octets} (h : bs ≠ []) : asciiText bs ≠ "" := by
  simpa [asciiText] using h

namespace Uri

variable {u : Uri} {bs : Octets}

lemma text_ne_empty_of_parseFull (h : parseFull bs = .ok u) : u.text ≠ "" := by
  obtain ⟨⟨scheme, afterScheme⟩, -, h⟩ := Outcome.bind_eq_ok.1 h
  obtain ⟨⟨name, rest⟩, hsplit, h⟩ := Outcome.bind_eq_ok.1 h
  cases scheme with
  | none =>
    simp only at h
    split at h
    · next hrest =>
      cases h
      simpa [text, target?] using
        asciiText_ne_empty (Authority.name_ne_nil_of_split hsplit hrest)
    · cases h
  | some s =>
    simp only at h
    split at h
    · cases h
    · obtain ⟨target, -, h⟩ := Outcome.bind_eq_ok.1 h
      cases h
      simp [text]

lemma text_ne_empty_of_parse (h : parse bs = .ok u) : u.text ≠ "" := by
  unfold parse at h
  split at h
  · cases h
  cases bs with
  | nil => cases h
  | cons b rest =>
    simp only at h
    split at h
    · next hb =>
      obtain ⟨p, hp, rfl⟩ := Outcome.map_eq_ok.1 h
      exact text_origin_ne_empty fun hempty =>
        PathAndQuery.path_ne_empty_of_scan hb hp hempty.1
    split at h
    · exact text_ne_empty_of_parseFull h
    split at h
    · cases h
      decide
    · obtain ⟨a, ha, rfl⟩ := Outcome.map_eq_ok.1 h
      obtain ⟨⟨name, tail⟩, hsplit, ha⟩ := Outcome.bind_eq_ok.1 ha
      simp only at ha
      split at ha
      · next htail =>
        cases ha
        simpa [text, target?] using
          asciiText_ne_empty (Authority.name_ne_nil_of_split hsplit htail)
      · cases ha

lemma completed_eq_self_of_parse (h : parse bs = .ok u) (hauthority : ∀ a, u ≠ authority a) :
    u.completed = u :=
  completed_eq_self hauthority (text_ne_empty_of_parse h)

end Uri

end SigV4.Http
