import SigV4.Proofs.Http.Visible
import SigV4.Proofs.Request.SameBut
import SigV4.Signature.Integrity

/-!
Headers that tie the payload, added once.

A request to which a directive was applied, or whose payload hash was resolved, is left alone
when the same is asked for again: the checksum header is there, the trailer is announced, the
hash is taken as announced. Only a trailer name that cannot be part of a list escapes this, since it
is not found where it was added.
-/

namespace SigV4.Integrity

open Checksum (Directive)
open Http (HeaderName HeaderValue)

variable {c : Config} {d : Directive} {r s : Request}

/-! ### Checksum headers -/

lemma headerChecksum_eq_ok {payload : Payload} {value : String} :
    headerChecksum d payload = .ok value ↔ d.value = some value ∨
      d.value = none ∧ ∃ bs, payload.octets? = some bs ∧ d.algorithm.compute bs = value := by
  unfold headerChecksum
  cases d.value <;> cases payload.octets? <;> simp

lemma addHeader_result (d : Directive) (r : Request) :
    (addHeader d r).result =
      if r.hasHeader d.headerName then .ok r
      else headerChecksum d r.payload >>= fun value => r.insertHeader d.headerName value := by
  unfold addHeader
  split
  · rfl
  · simp only [Signing.result_bind, Signing.result_ofExcept, Signing.result_ofLogged,
      Outcome.ok_bind]

lemma hasHeader_of_ofText? {n : HeaderName} (hn : HeaderName.ofText? d.headerName = some n) :
    r.hasHeader d.headerName = r.headers.contains n := by
  unfold Request.hasHeader
  rw [hn]

lemma addHeader_eq_ok (h : (addHeader d r).result = .ok s) :
    (r.hasHeader d.headerName = true ∧ s = r) ∨
      ∃ n value v, HeaderName.ofText? d.headerName = some n ∧ r.headers.contains n = false ∧
        headerChecksum d r.payload = .ok value ∧ HeaderValue.ofText? value = some v ∧
        s = { r with headers := r.headers.insert n v } := by
  rw [addHeader_result] at h
  by_cases hhas : r.hasHeader d.headerName = true
  · rw [if_pos hhas] at h
    exact .inl ⟨hhas, (Except.ok.inj h).symm⟩
  · rw [if_neg hhas, Outcome.bind_eq_ok] at h
    obtain ⟨value, hvalue, h⟩ := h
    rw [Request.insertHeader, Outcome.bind_eq_ok] at h
    obtain ⟨n, hn, h⟩ := h
    obtain ⟨v, hv, hs⟩ := Request.putText_eq_ok.1 h
    have hname := Request.readName_eq_ok.1 hn
    rw [hasHeader_of_ofText? hname, Bool.not_eq_true] at hhas
    exact .inr ⟨n, value, v, hname, hhas, hvalue, hv, hs.symm⟩

lemma addHeader_of_missing {n : HeaderName} {value : String} {v : HeaderValue}
    (hn : HeaderName.ofText? d.headerName = some n) (hmissing : r.headers.contains n = false)
    (hvalue : headerChecksum d r.payload = .ok value) (hv : HeaderValue.ofText? value = some v) :
    (addHeader d r).result = .ok { r with headers := r.headers.insert n v } := by
  rw [addHeader_result, hasHeader_of_ofText? hn, hmissing, if_neg Bool.false_ne_true, hvalue,
    Outcome.ok_bind, Request.insertHeader, Request.readName, hn]
  exact Request.putText_eq_ok.2 ⟨v, hv, rfl⟩

/-! ### Announced trailers -/

lemma announceTrailer_result (d : Directive) (r : Request) :
    (announceTrailer d r).result =
      isAnnounced d.headerName (r.headers.values .trailer) >>= fun announced =>
        if announced then .ok r else r.addText .trailer d.headerName := by
  unfold announceTrailer
  rw [Signing.result_bind]
  refine congrArg _ (funext fun announced => ?_)
  cases announced <;> rfl

lemma announceTrailer_eq_ok (h : (announceTrailer d r).result = .ok s) :
    (isAnnounced d.headerName (r.headers.values .trailer) = .ok true ∧ s = r) ∨
      ∃ v, isAnnounced d.headerName (r.headers.values .trailer) = .ok false ∧
        HeaderValue.ofText? d.headerName = some v ∧
        s = { r with headers := r.headers.append .trailer v } := by
  rw [announceTrailer_result, Outcome.bind_eq_ok] at h
  obtain ⟨announced, hannounced, h⟩ := h
  cases announced with
  | true => exact .inl ⟨hannounced, (Except.ok.inj h).symm⟩
  | false =>
    obtain ⟨v, hv, hs⟩ := Request.addText_eq_ok.1 h
    exact .inr ⟨v, hannounced, hv, hs.symm⟩

lemma isAnnounced_append {name text : String} {vs : List HeaderValue} {v : HeaderValue}
    (hvs : isAnnounced name vs = .ok false) (hv : v.text? = some text)
    (htext : announces name text = true) : isAnnounced name (vs ++ [v]) = .ok true := by
  induction vs with
  | nil =>
    rw [List.nil_append, isAnnounced, Request.readValue, hv, Outcome.ok_bind, if_pos htext]
    rfl
  | cons w vs ih =>
    rw [List.cons_append, isAnnounced]
    rw [isAnnounced, Outcome.bind_eq_ok] at hvs
    obtain ⟨value, hvalue, h⟩ := hvs
    rw [hvalue, Outcome.ok_bind]
    split at h
    · cases h
    · next hw => rw [if_neg hw, ih h]

/-! ### Payload hashes -/

lemma payloadHash_spec (hasTrailer : Bool) (p : Payload) :
    Http.IsVisible (payloadHash hasTrailer p) ∧
      Ascii.sameLetters (payloadHash hasTrailer p) placeholder = false := by
  have hunsigned : Http.IsVisible unsignedPayload ∧
      Ascii.sameLetters unsignedPayload placeholder = false := by decide
  have htrailing : Http.IsVisible trailingPayload ∧
      Ascii.sameLetters trailingPayload placeholder = false := by decide
  cases p with
  | memory bs =>
    refine ⟨Hex.isVisible_encode _, ?_⟩
    rw [Ascii.sameLetters, beq_eq_false_iff_ne]
    -- A digest has more digits than the placeholder has letters.
    intro h
    have hlength := congrArg (fun s : String => s.toList.length) h
    simp only [payloadHash, Ascii.toList_lower, List.length_map, Hex.encode, String.toList_ofList,
      Hex.length_digits] at hlength
    have hdigest : (Digest.Sha256.digest bs).length = 32 := rfl
    rw [hdigest] at hlength
    revert hlength
    decide
  | streaming n =>
    cases hasTrailer with
    | false => exact hunsigned
    | true => exact htrailing
  | unsigned => exact hunsigned

/-- The payload hash of a request is settled: it is announced, or it is the one of the payload
and need not be announced. -/
inductive IsSettled (c : Config) (hasTrailer : Bool) (r : Request) : String → Prop
  | announced (hash : String) (htext : r.getText .contentHash = .ok (some hash))
      (hreal : Ascii.sameLetters hash placeholder = false) : IsSettled c hasTrailer r hash
  | implied (hnone : r.getText .contentHash = .ok none) (hoff : c.contentHashHeader = false) :
      IsSettled c hasTrailer r (payloadHash hasTrailer r.payload)

lemma getText_congr {n : HeaderName} (h : s.headers.values n = r.headers.values n) :
    s.getText n = r.getText n := by
  rw [Request.getText, Request.getText, Http.Headers.get?_congr h]

lemma IsSettled.congr {hasTrailer : Bool} {hash : String} (h : IsSettled c hasTrailer r hash)
    (hvalues : s.headers.values .contentHash = r.headers.values .contentHash)
    (hpayload : s.payload = r.payload) : IsSettled c hasTrailer s hash := by
  cases h with
  | announced _ htext hreal => exact .announced hash ((getText_congr hvalues).trans htext) hreal
  | implied hnone hoff =>
    rw [← hpayload]
    exact .implied ((getText_congr hvalues).trans hnone) hoff

lemma IsSettled.resolveHash_eq {hasTrailer : Bool} {hash : String}
    (h : IsSettled c hasTrailer r hash) : resolveHash c hasTrailer r = .ok (r, hash) := by
  cases h with
  | announced _ htext hreal =>
    simp only [resolveHash, htext, Outcome.ok_bind, Option.filter, hreal]
    rfl
  | implied hnone hoff =>
    simp only [resolveHash, hnone, Outcome.ok_bind, Option.filter, hoff]
    rfl

lemma IsSettled.exists_getText {hasTrailer : Bool} {hash : String}
    (h : IsSettled c hasTrailer r hash) :
    ∃ announced, r.getText .contentHash = .ok announced ∧
      announced.getD (payloadHash hasTrailer r.payload) = hash := by
  cases h with
  | announced _ htext _ => exact ⟨_, htext, rfl⟩
  | implied hnone _ => exact ⟨_, hnone, rfl⟩

/-- The first of the values is the placeholder for the hash of the payload. -/
def asksForHash (vs : List HeaderValue) : Bool :=
  vs.head?.any fun v => v.text?.any fun text => Ascii.sameLetters text placeholder

lemma asksForHash_eq_of_text {vs : List HeaderValue} {v : HeaderValue} {text : String}
    (hfirst : vs.head? = some v) (htext : v.text? = some text) :
    asksForHash vs = Ascii.sameLetters text placeholder := by
  rw [asksForHash, hfirst, Option.any_some, htext, Option.any_some]

/-- The ways in which a payload hash is resolved: it is announced already, or it is the one of the
payload, which is then announced where the request or the configuration asks for it. -/
inductive Resolution (c : Config) (hasTrailer : Bool) (r : Request) : Request → String → Prop
  | announced {v : HeaderValue} {hash : String} (first : r.headers.get? .contentHash = some v)
      (text : v.text? = some hash) (real : Ascii.sameLetters hash placeholder = false) :
      Resolution c hasTrailer r r hash
  | implied (missing : r.headers.get? .contentHash = none) (off : c.contentHashHeader = false) :
      Resolution c hasTrailer r r (payloadHash hasTrailer r.payload)
  | put {v : HeaderValue} (wanted : asksForHash (r.headers.values .contentHash) = true ∨
        r.headers.get? .contentHash = none ∧ c.contentHashHeader = true)
      (value : HeaderValue.ofText? (payloadHash hasTrailer r.payload) = some v) :
      Resolution c hasTrailer r { r with headers := r.headers.insert .contentHash v }
        (payloadHash hasTrailer r.payload)

lemma getText_eq_ok {n : HeaderName} {text? : Option String} (h : r.getText n = .ok text?) :
    (r.headers.get? n = none ∧ text? = none) ∨
      ∃ v text, r.headers.get? n = some v ∧ v.text? = some text ∧ text? = some text := by
  unfold Request.getText at h
  cases hfirst : r.headers.get? n with
  | none =>
    rw [hfirst] at h
    cases h
    exact .inl ⟨rfl, rfl⟩
  | some v =>
    rw [hfirst] at h
    obtain ⟨text, htext, rfl⟩ := Outcome.map_eq_ok.1 h
    exact .inr ⟨v, text, rfl, Request.readValue_eq_ok.1 htext, rfl⟩

lemma resolution_of_resolveHash {hasTrailer : Bool} {hash : String}
    (h : resolveHash c hasTrailer r = .ok (s, hash)) : Resolution c hasTrailer r s hash := by
  obtain ⟨existing, hexisting, h⟩ := Outcome.bind_eq_ok.1 h
  have hput {t : Request} (hwanted : asksForHash (r.headers.values .contentHash) = true ∨
        r.headers.get? .contentHash = none ∧ c.contentHashHeader = true)
      (ht : r.putText .contentHash (payloadHash hasTrailer r.payload) = .ok t) :
      Resolution c hasTrailer r t (payloadHash hasTrailer r.payload) := by
    obtain ⟨v, hv, rfl⟩ := Request.putText_eq_ok.1 ht
    exact .put hwanted hv
  rcases getText_eq_ok hexisting with ⟨hnone, rfl⟩ | ⟨v, text, hfirst, htext, rfl⟩
  · cases hmode : c.contentHashHeader with
    | false =>
      simp only [Option.filter, hmode] at h
      cases h
      exact .implied hnone hmode
    | true =>
      simp only [Option.filter, hmode] at h
      obtain ⟨t, ht, h⟩ := Outcome.bind_eq_ok.1 h
      cases h
      exact hput (.inr ⟨hnone, hmode⟩) ht
  · cases hreal : Ascii.sameLetters text placeholder with
    | false =>
      simp only [Option.filter, hreal] at h
      cases h
      exact .announced hfirst htext hreal
    | true =>
      simp only [Option.filter, hreal] at h
      obtain ⟨t, ht, h⟩ := Outcome.bind_eq_ok.1 h
      cases h
      exact hput (.inl ((asksForHash_eq_of_text hfirst htext).trans hreal)) ht

/-- **Resolving the payload hash settles it**. No other header is touched, and none is dropped. -/
lemma resolveHash_spec {hasTrailer : Bool} {hash : String}
    (h : resolveHash c hasTrailer r = .ok (s, hash)) :
    r.SameBut [.contentHash] s ∧ IsSettled c hasTrailer s hash ∧
      (r.headers.contains .contentHash = true → s.headers.contains .contentHash = true) := by
  cases resolution_of_resolveHash h with
  | @announced v _ first text real =>
    refine ⟨.refl _ _, .announced hash ?_ real, id⟩
    rw [Request.getText, first]
    simp only [Request.readValue, text]
    rfl
  | implied missing off =>
    refine ⟨.refl _ _, .implied ?_ off, id⟩
    rw [Request.getText, missing]
  | @put v _ value =>
    obtain ⟨hvisible, hreal⟩ := payloadHash_spec hasTrailer r.payload
    refine ⟨.insert_right r .contentHash v, .announced _ ?_ hreal, fun _ => ?_⟩
    · simp only [Request.getText, Http.Headers.get?, Http.Headers.values_insert_self,
        List.head?_cons, Request.readValue, Http.text?_of_isVisible hvisible value]
      rfl
    · exact Http.Headers.contains_insert_self _ _ _

end SigV4.Integrity
