import SigV4.Proofs.Signature.ChecksumHeader
import SigV4.Proofs.Signature.StringToSign

/-!
The hash of the payload, announced and signed.

The last line of a canonical form is the hash of the payload, or a word that stands for it. A
request may announce the hash, and is then taken at its word; the placeholder announces none.
Whatever is announced in the end is what is signed, since no later step writes that header.
-/

namespace SigV4.Signer

open Checksum (Directive)
open Http (HeaderName HeaderValue)
open Integrity (asksForHash payloadHash placeholder)

variable {c : Config} {r s : Request} {credential : Credential} {now : Instant} {hash : String}
  {directive : Option Directive} {vs us : List HeaderValue} {signed : Request}
  {out : SigningOutput}

/-! ### What is announced -/

/-- The hash that a request with these values announces: the text of the first one, unless it is
the placeholder. -/
def announced? (vs : List HeaderValue) : Option String :=
  (vs.head?.bind HeaderValue.text?).filter fun text => !Ascii.sameLetters text placeholder

/-- What a payload is signed as when nothing is announced: the digest of one in memory, and a word
for any other. -/
inductive StandsFor (directive : Option Directive) : Payload → String → Prop
  | memory (bs : Octets) :
      StandsFor directive (.memory bs) (Hex.encode (Digest.Sha256.digest bs))
  | trailing (length : Option UInt64) (h : ∃ d ∈ directive, d.placement = .trailer) :
      StandsFor directive (.streaming length) "STREAMING-UNSIGNED-PAYLOAD-TRAILER"
  | streaming (length : Option UInt64) (h : ∀ d ∈ directive, d.placement = .header) :
      StandsFor directive (.streaming length) "UNSIGNED-PAYLOAD"
  | unsigned : StandsFor directive .unsigned "UNSIGNED-PAYLOAD"

/-- A hash is sent in the values `us`, where the request came with the values `vs`: what is
announced there is the hash and is kept, and where nothing is announced the hash is the only value,
if there was one or one is wanted. -/
structure IsSentAs (wanted : Bool) (vs us : List HeaderValue) (hash : String) : Prop where
  kept : ∀ text, announced? vs = some text → hash = text ∧ us = vs
  put : announced? vs = none → vs ≠ [] ∨ wanted = true →
    ∃ v, HeaderValue.ofText? hash = some v ∧ us = [v]
  absent : vs = [] → wanted = false → us = []
  first : ∀ v ∈ us.head?, v.text? = some hash
  real : Ascii.sameLetters hash "required" = false

lemma announced?_eq_some_iff {text : String} : announced? vs = some text ↔
    ∃ v, vs.head? = some v ∧ v.text? = some text ∧ Ascii.sameLetters text placeholder = false := by
  simp only [announced?, Option.filter_eq_some_iff, Option.bind_eq_some_iff, Bool.not_eq_true']
  constructor
  · rintro ⟨⟨v, first, text⟩, real⟩
    exact ⟨v, first, text, real⟩
  · rintro ⟨v, first, text, real⟩
    exact ⟨⟨v, first, text⟩, real⟩

lemma announced?_of_asksForHash (h : asksForHash vs = true) : announced? vs = none := by
  rw [Option.eq_none_iff_forall_ne_some]
  intro text htext
  obtain ⟨v, first, text, real⟩ := announced?_eq_some_iff.1 htext
  rw [Integrity.asksForHash_eq_of_text first text, real] at h
  cases h

lemma ne_nil_of_asksForHash (h : asksForHash vs = true) : vs ≠ [] := by
  rintro rfl
  cases h

lemma standsFor_payloadHash (directive : Option Directive) (p : Payload) :
    StandsFor directive p (payloadHash (hasTrailer directive) p) := by
  cases p with
  | memory bs => exact .memory bs
  | unsigned => exact .unsigned
  | streaming length =>
    cases htrailer : hasTrailer directive with
    | true =>
      obtain ⟨d, hd, hplace⟩ := (Option.any_eq_true _ _).1 htrailer
      exact .trailing length ⟨d, hd, by simpa using hplace⟩
    | false =>
      refine .streaming length fun d hd => ?_
      have hplace := (Option.any_eq_false _ _).1 htrailer d hd
      cases hd : d.placement <;> simp_all

/-! ### How it is resolved -/

lemma isSentAs_of_announced {wanted : Bool} (h : announced? vs = some hash) :
    IsSentAs wanted vs vs hash := by
  obtain ⟨v, first, text, real⟩ := announced?_eq_some_iff.1 h
  refine ⟨fun text htext => ⟨Option.some.inj (h.symm.trans htext), rfl⟩, fun hnone => ?_,
    fun hnil _ => hnil, fun w hw => ?_, real⟩
  · rw [h] at hnone
    cases hnone
  · obtain rfl : v = w := Option.some.inj (first.symm.trans hw)
    exact text

lemma isSentAs_of_put {wanted : Bool} {v : HeaderValue} (hnone : announced? vs = none)
    (hwanted : vs ≠ [] ∨ wanted = true) (hv : HeaderValue.ofText? hash = some v)
    (hvisible : Http.IsVisible hash) (hreal : Ascii.sameLetters hash placeholder = false) :
    IsSentAs wanted vs [v] hash := by
  refine ⟨fun text htext => ?_, fun _ _ => ⟨v, hv, rfl⟩, fun hnil hoff => ?_, fun w hw => ?_, hreal⟩
  · rw [hnone] at htext
    cases htext
  · simp [hnil, hoff] at hwanted
  · cases hw
    exact Http.text?_of_isVisible hvisible hv

lemma isSentAs_nil (hreal : Ascii.sameLetters hash placeholder = false) :
    IsSentAs false [] [] hash :=
  ⟨fun _ htext => (Option.some_ne_none _ htext.symm).elim, fun _ hwanted => by simp at hwanted,
    fun _ _ => rfl, fun _ hw => (Option.some_ne_none _ hw.symm).elim, hreal⟩

/-- **Resolving the hash of the payload announces what is signed**, which is the one of the payload
where nothing was announced. -/
lemma isSentAs_of_resolveHash {hasTrailer : Bool}
    (h : Integrity.resolveHash c hasTrailer r = .ok (s, hash)) :
    IsSentAs c.contentHashHeader (r.headers.values .contentHash) (s.headers.values .contentHash)
        hash ∧
      (announced? (r.headers.values .contentHash) = none →
        hash = payloadHash hasTrailer r.payload) := by
  obtain ⟨hvisible, hreal⟩ := Integrity.payloadHash_spec hasTrailer r.payload
  cases Integrity.resolution_of_resolveHash h with
  | @announced v _ first text real =>
    have hannounced := announced?_eq_some_iff.2 ⟨v, first, text, real⟩
    refine ⟨isSentAs_of_announced hannounced, fun hnone => ?_⟩
    rw [hannounced] at hnone
    cases hnone
  | implied missing off =>
    rw [List.head?_eq_none_iff.1 missing, off]
    exact ⟨isSentAs_nil hreal, fun _ => rfl⟩
  | @put v wanted value =>
    rw [Http.Headers.values_insert_self]
    refine ⟨?_, fun _ => rfl⟩
    rcases wanted with hasks | ⟨hmissing, hon⟩
    · exact isSentAs_of_put (announced?_of_asksForHash hasks) (.inl (ne_nil_of_asksForHash hasks))
        value hvisible hreal
    · have hnil := List.head?_eq_none_iff.1 hmissing
      exact isSentAs_of_put (by rw [hnil]; rfl) (.inr hon) value hvisible hreal

/-! ### The last line -/

lemma getLast?_linesOf {text last : String} (h : IsUnbroken last) :
    (linesOf (text ++ "\n" ++ last)).getLast? = some last := by
  have hsplit : (text ++ "\n" ++ last).toList.splitOn '\n' =
      text.toList.splitOn '\n' ++ [last.toList] := by
    rw [String.toList_append, String.toList_append, List.append_assoc]
    have hmark : "\n".toList = ['\n'] := rfl
    rw [hmark, List.singleton_append, List.splitOn_append_cons_self,
      List.splitOn_eq_singleton h.newline_not_mem]
  rw [linesOf, hsplit, List.map_append, List.map_singleton, List.getLast?_concat,
    String.ofList_toList]

lemma isUnbroken_of_text? {v : HeaderValue} {text : String} (h : v.text? = some text) :
    IsUnbroken text := by
  intro ch hch
  have hrange := Http.isTextChar_iff.1 (Http.isTextChar_of_text? h hch)
  simp only [isLineBreak, Bool.and_eq_false_iff, decide_eq_false_iff_not]
  omega

lemma Stages.canonicalRequest_eq (st : Stages c r credential directive now signed out) :
    out.canonicalRequest = st.canonical.text := congrArg SigningOutput.canonicalRequest st.out_eq

lemma Stages.getLast?_canonicalRequest (st : Stages c r credential directive now signed out)
    (h : IsUnbroken st.hash) : (linesOf out.canonicalRequest).getLast? = some st.hash := by
  obtain ⟨-, -, -, -, hhash⟩ := CanonicalRequest.ofRequest_eq_ok st.formed
  rw [st.canonicalRequest_eq, CanonicalRequest.text, hhash, getLast?_linesOf h]

lemma Stages.isSentAs (st : Stages c r credential directive now signed out)
    (hname : HeaderName.contentHash ∉ guardNames directive) :
    IsSentAs c.contentHashHeader (r.headers.values .contentHash)
        (signed.headers.values .contentHash) st.hash ∧
      (announced? (r.headers.values .contentHash) = none →
        st.hash = payloadHash (hasTrailer directive) r.payload) := by
  obtain ⟨guarded, hashed, hguarded, hhashed, hhosted⟩ := groundwork_eq_ok.1 st.grounded
  have hguard := integrate_sameBut hguarded
  have hstrip := strip_sameBut c r
  have hcame : guarded.headers.values .contentHash = r.headers.values .contentHash :=
    (hguard.values _ hname).trans (hstrip.values _ (by decide))
  have hleft : signed.headers.values .contentHash = hashed.headers.values .contentHash :=
    st.values_contentHash.trans ((addHost_spec hhosted).1.values _ (by decide))
  rw [hleft, ← hcame, ← hstrip.payload, ← hguard.payload]
  exact isSentAs_of_resolveHash hhashed

/-- **The payload hash that is announced is the one that is signed.** A request is taken at its
word; where it announces nothing, the last line of its canonical form stands for the payload, and is
announced if the request asks for that or the configuration does. -/
theorem payload_hash_isSentAs
    (hname : ∀ d ∈ directive, d.placement = .header →
      HeaderName.ofText? d.headerName ≠ some .contentHash)
    (h : (calculate c r credential directive now).result = .ok (signed, out)) :
    ∃ hash, (linesOf out.canonicalRequest).getLast? = some hash ∧
      (announced? (r.headers.values .contentHash) = none → StandsFor directive r.payload hash) ∧
      IsSentAs c.contentHashHeader (r.headers.values .contentHash)
        (signed.headers.values .contentHash) hash := by
  obtain ⟨st⟩ := calculate_eq_ok.1 h
  obtain ⟨hsent, hcomputed⟩ := st.isSentAs (not_mem_guardNames (by decide) hname)
  have hunbroken : IsUnbroken st.hash := by
    cases hannounced : announced? (r.headers.values .contentHash) with
    | some text =>
      obtain ⟨v, -, htext, -⟩ := announced?_eq_some_iff.1 hannounced
      rw [(hsent.kept text hannounced).1]
      exact isUnbroken_of_text? htext
    | none =>
      rw [hcomputed hannounced]
      exact (Integrity.payloadHash_spec _ _).1.isUnbroken
  refine ⟨st.hash, st.getLast?_canonicalRequest hunbroken, fun hnone => ?_, hsent⟩
  rw [hcomputed hnone]
  exact standsFor_payloadHash directive r.payload

/-- The placeholder in capitals, another hash after it, and a checksum in a header of its own. -/
theorem payload_hash_isSentAs_of_placeholder :
    let c := Config.forService "demo" "us-east-1"
    let host : HeaderValue := ⟨utf8 "h", false, by decide⟩
    let first : HeaderValue := ⟨utf8 "REQUIRED", false, by decide⟩
    let second : HeaderValue := ⟨utf8 "UNSIGNED-PAYLOAD", true, by decide⟩
    let r := Request.ofHead ⟨.get, .absolute .https ⟨"h"⟩ ⟨"/", none⟩,
      ⟨[(.contentHash, first), (.host, host), (.contentHash, second)]⟩⟩ (.memory (utf8 "payload"))
    let d := ((Directive.of .crc32c .header).withHeaderName "X-Sum").withValue "sum"
    let credential := Credential.ofKeys "id" "key"
    let now : Instant := ⟨⟨2015, 8, 30, by decide, by decide⟩, 12, 36, 0, 0, by decide, by decide,
      by decide, by decide⟩
    ∃ signed out hash, (calculate c r credential (some d) now).result = .ok (signed, out) ∧
      (∀ e ∈ some d, e.placement = .header →
        HeaderName.ofText? e.headerName ≠ some .contentHash) ∧
      (linesOf out.canonicalRequest).getLast? = some hash ∧ StandsFor (some d) r.payload hash ∧
      IsSentAs c.contentHashHeader (r.headers.values .contentHash)
        (signed.headers.values .contentHash) hash := by
  intro c host first second r d credential now
  have opened : opening c credential now = .ok ⟨"20150830", "us-east-1", "demo"⟩ := by cbv
  have hpath : Canonical.path c r = .ok "/" := by cbv
  have hname : HeaderName.ofText? d.headerName = some ⟨"x-sum", by decide⟩ := by decide
  have hother : ∀ e ∈ some d, e.placement = .header →
      HeaderName.ofText? e.headerName ≠ some .contentHash := by decide
  obtain ⟨signed, out, h⟩ := exists_calculate_of_checksum opened rfl hname
    (show Integrity.headerChecksum d r.payload = .ok "sum" from rfl) (by decide) (by decide) hpath
    (by decide) (by decide) (by decide) (by decide) (by decide)
  obtain ⟨hash, hlast, hstands, hsent⟩ := payload_hash_isSentAs hother h
  exact ⟨signed, out, hash, h, hother, hlast, hstands (by decide), hsent⟩

end SigV4.Signer
