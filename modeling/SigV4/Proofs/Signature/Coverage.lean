import Mathlib
import SigV4.Proofs.Signature.Verifier

/-!
What a signature covers.

The list of signed names is made before the authorization and an unsigned token are attached, and
the headers that are sent are there after it. Since neither has a value when the list is made, the
list can be told from the headers that are sent: it names all of them, but for those that are left
out, the authorization, and a token that is not to be signed.
-/

namespace SigV4.Signer

open Http (HeaderName HeaderValue)

variable {c : Config} {r : Request} {hash : String} {a : CanonicalRequest}

/-- The names in a list separated by semicolons; the empty text lists none. -/
def listed (signedHeaders : String) : List String :=
  (Verifier.namesOf signedHeaders).filter (· ≠ "")

/-- The listed names ascend octet by octet, stand between semicolons and nothing else, and are
those of the headers of a request that are to be signed. -/
structure Covers (c : Config) (signedHeaders : String) (signed : Request) : Prop where
  ascending : (listed signedHeaders).Pairwise fun m n => utf8 m < utf8 n
  joined : String.intercalate ";" (listed signedHeaders) = signedHeaders
  mem_iff : ∀ name, name ∈ listed signedHeaders ↔ ∃ n ∈ signed.headers.names, n.text = name ∧
    c.isExcluded name = false ∧ n ≠ .authorization ∧
      (n = .securityToken → c.signSecurityToken = true)

/-! ### The list of a canonical form -/

/-- **The list says which lines the canonical form has**, and in which order. -/
lemma listed_signedHeaders (h : CanonicalRequest.ofRequest c r hash = .ok a) :
    listed a.signedHeaders = a.headers.map Prod.fst := by
  by_cases hnil : a.headers.map Prod.fst = []
  · rw [listed, Verifier.namesOf_signedHeaders_of_nil hnil, hnil]
    rfl
  · rw [listed, Verifier.namesOf_signedHeaders h hnil, List.filter_eq_self]
    intro name hname
    obtain ⟨n, rfl⟩ := CanonicalRequest.exists_name_of_mem h hname
    exact decide_eq_true n.isName.1

lemma pairwise_listed (h : CanonicalRequest.ofRequest c r hash = .ok a) :
    (listed a.signedHeaders).Pairwise fun m n => utf8 m < utf8 n := by
  rw [listed_signedHeaders h]
  refine (Canonical.pairwise_headers_fst (CanonicalRequest.ofRequest_eq_ok h).2.1).imp_of_mem ?_
  intro name name' hname hname' hlt
  obtain ⟨m, rfl⟩ := CanonicalRequest.exists_name_of_mem h hname
  obtain ⟨n, rfl⟩ := CanonicalRequest.exists_name_of_mem h hname'
  exact HeaderName.utf8_text_lt hlt

lemma mem_listed_iff (h : CanonicalRequest.ofRequest c r hash = .ok a) (name : String) :
    name ∈ listed a.signedHeaders ↔ ∃ n : HeaderName, n.text = name ∧ c.isExcluded name = false ∧
      r.headers.values n ≠ [] := by
  have hsigned : ∀ n : HeaderName, n.text ∈ listed a.signedHeaders ↔
      c.isExcluded n.text = false ∧ r.headers.values n ≠ [] := by
    intro n
    rw [listed_signedHeaders h, Canonical.mem_headers_fst (CanonicalRequest.ofRequest_eq_ok h).2.1,
      Canonical.mem_signedNames, Canonical.signedValues]
    cases c.isExcluded n.text <;> simp
  constructor
  · intro hname
    obtain ⟨n, rfl⟩ := CanonicalRequest.exists_name_of_mem h (listed_signedHeaders h ▸ hname)
    exact ⟨n, rfl, (hsigned n).1 hname⟩
  · rintro ⟨n, rfl, hn⟩
    exact (hsigned n).2 hn

/-! ### From the list to what is sent -/

variable {credential : Credential} {directive : Option Checksum.Directive} {now : Instant}
  {signed : Request} {out : SigningOutput}

/-- **What has a value when the list is made is what has one when it is sent**, but for what is
attached in between. -/
lemma Stages.values_prepared_ne_nil_iff (st : Stages c r credential directive now signed out)
    (hauth : HeaderName.authorization ∉ guardNames directive)
    (htoken : HeaderName.securityToken ∉ guardNames directive) (n : HeaderName) :
    st.prepared.headers.values n ≠ [] ↔ signed.headers.values n ≠ [] ∧ n ≠ .authorization ∧
      (n = .securityToken → c.signSecurityToken = true) := by
  constructor
  · intro hn
    refine ⟨?_, ?_, ?_⟩
    · rwa [st.values_signed_of_ne_nil hauth htoken hn]
    · rintro rfl
      exact hn (st.values_prepared_authorization hauth)
    · rintro rfl
      by_contra hmode
      exact hn (st.values_prepared_securityToken htoken (by simpa using hmode))
  · rintro ⟨hn, hne, hmode⟩
    have hkept : c.signSecurityToken = false → n ≠ .securityToken := by
      rintro hoff rfl
      rw [hmode rfl] at hoff
      cases hoff
    rwa [st.values_signed hne hkept] at hn

/-- **A signature covers all that is sent**, except what it is meant to leave out: what the signer
adds and what the caller set is signed unless it is left out by name, the authorization never is,
and neither is a token, new or old, that is not to be signed. A checksum under one of these two
names is left aside. -/
theorem covers_signed
    (hauth : ∀ d ∈ directive, d.placement = .header →
      HeaderName.ofText? d.headerName ≠ some .authorization)
    (htoken : ∀ d ∈ directive, d.placement = .header →
      HeaderName.ofText? d.headerName ≠ some .securityToken)
    (h : (calculate c r credential directive now).result = .ok (signed, out)) :
    Covers c out.signedHeaders signed := by
  obtain ⟨st⟩ := calculate_eq_ok.1 h
  have hout : out.signedHeaders = st.canonical.signedHeaders := congrArg _ st.out_eq
  rw [hout]
  refine
    { ascending := pairwise_listed st.formed
      joined := by rw [listed_signedHeaders st.formed]; rfl
      mem_iff := fun name => ?_ }
  have hprepared := st.values_prepared_ne_nil_iff (not_mem_guardNames (by decide) hauth)
    (not_mem_guardNames (by decide) htoken)
  rw [mem_listed_iff st.formed]
  constructor
  · rintro ⟨n, hname, hkept, hn⟩
    obtain ⟨hsent, hne, hmode⟩ := (hprepared n).1 hn
    exact ⟨n, (Http.Headers.mem_names _ _).2 hsent, hname, hkept, hne, hmode⟩
  · rintro ⟨n, hsent, hname, hkept, hne, hmode⟩
    have hn := (hprepared n).2 ⟨(Http.Headers.mem_names _ _).1 hsent, hne, hmode⟩
    exact ⟨n, hname, hkept, hn⟩

/-- Names left out that do not include the authorization, a checksum header, a user in the target,
and what an earlier round left: its authorization and its token. -/
theorem covers_signed_of_resigned :
    let c := (Config.forService "demo" "us-east-1").withExcluded ["X-Note"]
    let note : HeaderName := ⟨"x-note", by decide⟩
    let old : HeaderValue := ⟨utf8 "old", true, by decide⟩
    let r := Request.ofHead ⟨.get, .absolute .https ⟨"u@h:80"⟩ ⟨"/a", none⟩,
      ⟨[(.authorization, old), (note, old), (.securityToken, old)]⟩⟩ .unsigned
    let d := (Checksum.Directive.of .crc32 .header).withValue "AAAAAA=="
    let credential := Credential.ofKeys "id" "key"
    let now : Instant := ⟨⟨2015, 8, 30, by decide, by decide⟩, 12, 36, 0, 0, by decide, by decide,
      by decide, by decide⟩
    ∃ signed out, (calculate c r credential (some d) now).result = .ok (signed, out) ∧
      Covers c out.signedHeaders signed := by
  intro c note old r d credential now
  let checksum : HeaderName := ⟨"x-amz-checksum-crc32", by decide⟩
  let value : HeaderValue := ⟨utf8 "AAAAAA==", false, by decide⟩
  let host : HeaderValue := ⟨utf8 "h:80", false, by decide⟩
  let guarded : Request := { r with headers := ⟨[(note, old), (checksum, value)]⟩ }
  let ground : Request := { r with headers := guarded.headers.insert .host host }
  have opened : opening c credential now = .ok ⟨"20150830", "us-east-1", "demo"⟩ := by cbv
  have hname : HeaderName.ofText? d.headerName = some checksum := by decide
  have guards : (Integrity.addHeader d (strip c r)).result = .ok guarded :=
    Integrity.addHeader_of_missing hname (by decide) (by rfl) (by decide)
  have hashed : Integrity.resolveHash c false guarded =
      .ok (guarded, Integrity.unsignedPayload) := by cbv
  have hosted : addHost guarded = .ok ground := by
    rw [addHost, if_neg (by decide)]
    cbv
  have grounded : groundwork c (some d) r = .ok (ground, Integrity.unsignedPayload) :=
    groundwork_eq_ok.2 ⟨guarded, guarded, guards, hashed, hosted⟩
  have hpath : Canonical.path c r = .ok "/a" := by cbv
  obtain ⟨signed, out, h⟩ := exists_calculate_of_groundwork opened grounded hpath (by decide)
    (by decide) (by decide) (by decide) (by decide)
  exact ⟨signed, out, h, covers_signed (by decide) (by decide) h⟩

end SigV4.Signer
