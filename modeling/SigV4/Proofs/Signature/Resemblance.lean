import Mathlib
import SigV4.Proofs.Signature.Lockstep

/-!
What a signature does not depend on.

Two requests that resemble each other go through the stages side by side. What one stage may
look at, it finds alike on both sides, so it fails on both, for one cause, or leaves requests that
resemble each other again. The values that signing replaces are free at first and agree once the
date is put, and then the canonical forms are the same.
-/

namespace SigV4.Signer

open Http (HeaderName HeaderValue)
open Outcome (Alike)
open Request (Resembles)

variable {c : Config} {r s : Request} {credential : Credential} {now : Instant} {hash : String}
  {directive : Option Checksum.Directive} {loose : List HeaderName}

/-- The headers whose earlier values signing drops before it takes the canonical form. -/
def droppedNames (c : Config) : List HeaderName :=
  if c.signSecurityToken then [.authorization, .date] else [.authorization, .securityToken, .date]

lemma strip_resembles (h : Resembles c (droppedNames c) r s) :
    Resembles c [.date] (strip c r) (strip c s) := by
  unfold droppedNames at h
  cases hmode : c.signSecurityToken with
  | true =>
    rw [hmode] at h
    simpa only [strip, hmode, if_true] using h.erase
  | false =>
    rw [hmode] at h
    have hboth : Resembles c [.date]
        { r with headers := (r.headers.erase .authorization).erase .securityToken }
        { s with headers := (s.headers.erase .authorization).erase .securityToken } :=
      Resembles.erase (Resembles.erase h)
    simpa only [strip, hmode, Bool.false_eq_true, if_false] using hboth

lemma groundwork_resembling (h : Resembles c (droppedNames c) r s) :
    Alike (fun p q => Resembles c [.date] p.1 q.1 ∧ p.2 = q.2) (groundwork c directive r)
      (groundwork c directive s) :=
  have hR : Lockstep (.host :: guardNames directive) (Resembles c [.date]) :=
    lockstep_resembles _ _ _
  groundwork_alike hR (List.subset_cons_self _ _) List.mem_cons_self rfl (strip_resembles h)

lemma addDated_resembling (h : Resembles c [.date] r s) :
    Alike (Resembles c []) (addDated c credential now r) (addDated c credential now s) := by
  unfold addDated
  refine (h.putText_alike now.stamp).bind fun u v hdated => ?_
  split
  · next token _ _ =>
    exact alike_putHidden (hdated.mono (List.nil_subset [.securityToken])).insert token
  · exact .ok hdated

lemma prepare_resembling (h : Resembles c (droppedNames c) r s) :
    Alike (fun p q => Resembles c [] p.1 q.1 ∧ p.2 = q.2)
      (prepare c r credential directive now).result
      (prepare c s credential directive now).result := by
  rw [prepare_result, prepare_result]
  refine (groundwork_resembling h).bind fun p q hground => ?_
  exact (addDated_resembling hground.1).bind fun _ _ hdated => .ok ⟨hdated, hground.2⟩

lemma ofRequest_eq_of_resembles (h : Resembles c [] r s) :
    CanonicalRequest.ofRequest c r hash = CanonicalRequest.ofRequest c s hash := by
  refine CanonicalRequest.ofRequest_congr_folds rfl rfl h.method.symm h.path.symm h.query
    fun n => ?_
  unfold Canonical.signedFolds Canonical.signedValues
  cases hkept : c.isExcluded n.text with
  | true => rfl
  | false => exact (h.folded n (by simp) hkept).symm

/-- What is attached does not matter, and whether it can be attached does not depend on the
request. -/
lemma attach_alike {earlier earlier' : Option HeaderValue} (text : String) :
    Alike (fun _ _ => True) (attach c credential earlier text r)
      (attach c credential earlier' text s) := by
  have hput : ∀ (u v : Request) (n : HeaderName) (value : String),
      Alike (fun _ _ => True) (putHidden u n value) (putHidden v n value) := fun _ _ _ =>
    alike_putHidden fun _ => trivial
  unfold attach
  refine (hput r s .authorization text).bind fun u v _ => ?_
  split
  · exact .ok trivial
  · unfold attachToken
    cases credential.sessionToken with
    | some token => exact hput u v .securityToken token
    | none => cases earlier <;> cases earlier' <;> exact .ok trivial

/-- **A signature depends on what is signed and on nothing else.** -/
lemma closing_resembling {scope : Scope} {earlier earlier' : Option HeaderValue}
    (h : Resembles c [] r s) :
    Alike (fun p q => p.2 = q.2) (closing c credential now scope earlier r hash)
      (closing c credential now scope earlier' s hash) := by
  unfold closing
  refine .bind_of_eq (ofRequest_eq_of_resembles h) fun canonical => ?_
  exact (attach_alike _).bind fun _ _ _ => .ok rfl

/-- **Signing ignores what the canonical form is meant to ignore**: the order of query pairs and
those without a name, the order of headers, blanks around words, the values of headers that are left
out, and what an earlier signature left. Both requests get the same output, or fail for one
cause. -/
theorem output_eq_of_resembles (h : Resembles c (droppedNames c) r s) :
    (calculate c r credential directive now).result.map Prod.snd =
      (calculate c s credential directive now).result.map Prod.snd := by
  have hsigned : Alike (fun p q => p.2 = q.2) (calculate c r credential directive now).result
      (calculate c s credential directive now).result := by
    rw [calculate_result, calculate_result]
    refine .bind_of_eq rfl fun scope => (prepare_resembling h).bind fun p q hpq => ?_
    rw [← hpq.2]
    exact closing_resembling hpq.1
  exact hsigned.map_eq fun _ _ hout => hout

/-- Query pairs, headers and blanks in another arrangement, another date, and a header that is left
out and reads as no text on one side. -/
theorem output_eq_of_rearranged :
    let c := Config.forService "demo" "us-east-1"
    let agent : HeaderName := ⟨"user-agent", by decide⟩
    let note : HeaderName := ⟨"x-note", by decide⟩
    let host : HeaderValue := ⟨utf8 "h", false, by decide⟩
    let old : HeaderValue := ⟨utf8 "old", false, by decide⟩
    let new : HeaderValue := ⟨utf8 "new", false, by decide⟩
    let unread : HeaderValue := ⟨[0xFF], false, by decide⟩
    let curl : HeaderValue := ⟨utf8 "curl", false, by decide⟩
    let wide : HeaderValue := ⟨utf8 " a \t b", false, by decide⟩
    let tight : HeaderValue := ⟨utf8 "a b", false, by decide⟩
    let r := Request.ofHead ⟨.get, .absolute .http ⟨"h"⟩ ⟨"/a", some "b=1&a&=x"⟩,
      ⟨[(.date, old), (.host, host), (agent, unread), (note, wide)]⟩⟩ (.streaming none)
    let s := { r with
      query := Query.parse "a=&b=1"
      headers := ⟨[(note, tight), (agent, curl), (.host, host), (.date, new)]⟩ }
    let directive := some (Checksum.Directive.of .crc32 .trailer)
    let credential := Credential.ofKeys "id" "key"
    let now : Instant := ⟨⟨2015, 8, 30, by decide, by decide⟩, 12, 36, 0, 0, by decide, by decide,
      by decide, by decide⟩
    Resembles c (droppedNames c) r s ∧
      ∃ out, (calculate c r credential directive now).result.map Prod.snd = .ok out ∧
        (calculate c s credential directive now).result.map Prod.snd = .ok out := by
  intro c agent note host old new unread curl wide tight r s directive credential now
  have hnames : ∀ n, n = .date ∨ n = .host ∨ n = agent ∨ n = note ∨
      (r.headers.values n = [] ∧ s.headers.values n = []) := by
    intro n
    by_cases hdate : HeaderName.date = n
    · exact .inl hdate.symm
    by_cases hhost : HeaderName.host = n
    · exact .inr (.inl hhost.symm)
    by_cases hagent : agent = n
    · exact .inr (.inr (.inl hagent.symm))
    by_cases hnote : note = n
    · exact .inr (.inr (.inr (.inl hnote.symm)))
    refine .inr (.inr (.inr (.inr ⟨?_, ?_⟩))) <;>
      simp [r, s, Request.ofHead, Http.Headers.values, hdate, hhost, hagent, hnote]
  have hr : Canonical.namedPairs r.query = [("b", "1"), ("a", "")] := by cbv
  have hs : Canonical.namedPairs s.query = [("a", ""), ("b", "1")] := by cbv
  have hsame : Resembles c (droppedNames c) r s := by
    refine
      { method := rfl, authority := rfl, path := rfl, payload := rfl
        query := ?query
        present := fun n => ?present
        folded := fun n hn hkept => ?folded
        read := by decide }
    case query =>
      rw [hr, hs]
      exact .swap _ _ _
    case present =>
      rw [Bool.eq_iff_iff, Http.Headers.contains_iff, Http.Headers.contains_iff]
      rcases hnames n with rfl | rfl | rfl | rfl | ⟨hr, hs⟩
      · decide
      · decide
      · decide
      · decide
      · rw [hr, hs]
    case folded =>
      rcases hnames n with rfl | rfl | rfl | rfl | ⟨hr, hs⟩
      · exact absurd (by decide) hn
      · cbv
      · revert hkept; decide
      · cbv
      · rw [hr, hs]
  let trailer : HeaderValue := ⟨utf8 "x-amz-checksum-crc32", false, by decide⟩
  let date : HeaderValue := ⟨utf8 "20150830T123600Z", false, by decide⟩
  have opened : opening c credential now = .ok ⟨"20150830", "us-east-1", "demo"⟩ := by cbv
  have grounded : groundwork c directive s =
      .ok ({ s with headers := s.headers.append .trailer trailer },
        Integrity.trailingPayload) := by cbv
  have dated : addDated c credential now { s with headers := s.headers.append .trailer trailer } =
      .ok { s with headers := (s.headers.append .trailer trailer).insert .date date } := by cbv
  obtain ⟨canonical, formed⟩ : ∃ a, CanonicalRequest.ofRequest c
      { s with headers := (s.headers.append .trailer trailer).insert .date date }
      Integrity.trailingPayload = .ok a :=
    CanonicalRequest.exists_ofRequest (p := "/a") (by cbv) (by decide)
  obtain ⟨signed, out, h⟩ := exists_calculate opened grounded dated formed (by decide) (by decide)
    (by decide) (by decide)
  have hout : (calculate c s credential directive now).result.map Prod.snd = .ok out := by
    rw [h]
    rfl
  exact ⟨hsame, out, (output_eq_of_resembles hsame).trans hout, hout⟩

end SigV4.Signer
