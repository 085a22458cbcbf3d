import SigV4.Proofs.Canonical.Request
import SigV4.Proofs.Signature.Integrity
import SigV4.Signature.Signer

/-!
The stages of a signature.

Without its records, signing opens with a scope, lays the groundwork that depends neither on the
credential nor on the time, adds date and token, and closes with the canonical form and the
signature. Each stage is described by the headers it may touch, so what a stage leaves behind
can be traced to the end.
-/

namespace SigV4.Signer

open Http (HeaderName HeaderValue)

variable {c : Config} {r s : Request} {credential : Credential} {now : Instant} {hash : String}
  {directive : Option Checksum.Directive}

/-- What has to be in place before the request is looked at, and the scope. -/
def opening (c : Config) (credential : Credential) (now : Instant) : Except Error Scope := do
  c.validate
  if !credential.hasKeys then throw .keysMissing
  Scope.of now c.region c.service

/-- The stripped request with what the directive asks for, its payload hash and a host. -/
def groundwork (c : Config) (directive : Option Checksum.Directive) (r : Request) :
    Except Error (Request × String) := do
  let r ← (integrate directive (strip c r)).result
  let (r, hash) ← Integrity.resolveHash c (hasTrailer directive) r
  let r ← addHost r
  return (r, hash)

/-- Adds the date and a session token that is to be signed. -/
def addDated (c : Config) (credential : Credential) (now : Instant) (r : Request) :
    Except Error Request := do
  let r ← r.putText .date now.stamp
  match c.signSecurityToken, credential.sessionToken with
  | true, some token => putHidden r .securityToken token
  | _, _ => return r

/-- What comes up of a canonical form. -/
def outputOf (credential : Credential) (now : Instant) (scope : Scope)
    (canonical : CanonicalRequest) : SigningOutput where
  canonicalRequest := canonical.text
  stringToSign := stringToSign now scope canonical.text
  scope := scope.text
  signedHeaders := canonical.signedHeaders
  signature := (SigningKey.derive credential.secretAccessKey scope).sign
    (stringToSign now scope canonical.text)

/-- The token that the request came with, where it is not signed. -/
def earlierToken (c : Config) (r : Request) : Option HeaderValue :=
  if c.signSecurityToken then none else r.headers.get? .securityToken

/-- Takes the canonical form and attaches the signature. -/
def closing (c : Config) (credential : Credential) (now : Instant) (scope : Scope)
    (earlier : Option HeaderValue) (prepared : Request) (hash : String) :
    Except Error (Request × SigningOutput) := do
  let canonical ← CanonicalRequest.ofRequest c prepared hash
  let output := outputOf credential now scope canonical
  let signed ← attach c credential earlier
    (authorization credential.accessKeyId scope output.signedHeaders output.signature) prepared
  return (signed, output)

lemma addSigned_eq (c : Config) (credential : Credential) (now : Instant) (r : Request) :
    addSigned c credential now r = addHost r >>= addDated c credential now := rfl

lemma prepare_result (c : Config) (r : Request) (credential : Credential)
    (directive : Option Checksum.Directive) (now : Instant) :
    (prepare c r credential directive now).result =
      groundwork c directive r >>= fun p =>
        addDated c credential now p.1 >>= fun s => .ok (s, p.2) := by
  simp only [prepare, groundwork, addSigned_eq, Signing.result_bind, Signing.result_ofExcept,
    Signing.result_pure, bind_assoc, pure_bind]

lemma calculate_result (c : Config) (r : Request) (credential : Credential)
    (directive : Option Checksum.Directive) (now : Instant) :
    (calculate c r credential directive now).result =
      opening c credential now >>= fun scope =>
        (prepare c r credential directive now).result >>= fun p =>
          closing c credential now scope (earlierToken c r) p.1 p.2 := by
  unfold calculate opening
  cases hkeys : credential.hasKeys with
  | false =>
    cases hvalid : c.validate with
    | error e => rfl
    | ok _ => rfl
  | true =>
    simp only [Bool.not_true, Bool.false_eq_true, if_false, Signing.result_bind,
      Signing.result_ofExcept, Signing.result_ofLogged, Signing.result_pure, bind_assoc,
      Outcome.ok_bind]
    rfl

/-! ### What each stage touches -/

lemma opening_eq_ok {scope : Scope} (h : opening c credential now = .ok scope) :
    c.validate = .ok () ∧ credential.hasKeys = true ∧
      Scope.of now c.region c.service = .ok scope := by
  obtain ⟨_, hvalid, h⟩ := Outcome.bind_eq_ok.1 h
  cases hkeys : credential.hasKeys with
  | true => rw [hkeys] at h; exact ⟨hvalid, rfl, h⟩
  | false => rw [hkeys] at h; cases h

/-- **In which order an opening finds faults.** -/
lemma opening_eq (c : Config) (credential : Credential) (now : Instant) :
    opening c credential now =
      if c.service = "" then .error .serviceMissing
      else if c.region = "" then .error .regionMissing
      else if credential.accessKeyId = "" ∨ credential.secretAccessKey = "" then
        .error .keysMissing
      else .ok ⟨now.dateStamp, c.region, c.service⟩ := by
  unfold opening Config.validate
  by_cases hservice : c.service = ""
  · rw [if_pos hservice, if_pos hservice]
    rfl
  · by_cases hregion : c.region = ""
    · rw [if_neg hservice, if_neg hservice, if_pos hregion, if_pos hregion]
      rfl
    · rw [if_neg hservice, if_neg hservice, if_neg hregion, if_neg hregion, Outcome.ok_bind,
        Scope.of, if_neg hregion, if_neg hservice]
      by_cases hkeys : credential.accessKeyId = "" ∨ credential.secretAccessKey = ""
      · have hmissing : credential.hasKeys = false := by
          simpa [Credential.hasKeys, imp_iff_not_or] using hkeys
        rw [hmissing, if_pos hkeys]
        rfl
      · have hthere : credential.hasKeys = true := by simpa [Credential.hasKeys] using hkeys
        rw [hthere, if_neg hkeys]
        rfl

lemma scope_of_opening {scope : Scope} (h : opening c credential now = .ok scope) :
    scope = ⟨now.dateStamp, c.region, c.service⟩ := by
  rw [opening_eq] at h
  split_ifs at h
  exact (Except.ok.inj h).symm

lemma values_strip (c : Config) (r : Request) (n : HeaderName) :
    (strip c r).headers.values n =
      if n ≠ .authorization ∧ (c.signSecurityToken = false → n ≠ .securityToken) then
        r.headers.values n
      else [] := by
  unfold strip
  by_cases hauth : n = .authorization
  · subst hauth
    cases c.signSecurityToken <;> simp [Http.Headers.values_erase]
  · by_cases htoken : n = .securityToken
    · subst htoken
      cases c.signSecurityToken <;> simp [Http.Headers.values_erase, hauth, Ne.symm hauth]
    · cases c.signSecurityToken <;>
        simp [Http.Headers.values_erase, hauth, htoken, Ne.symm hauth, Ne.symm htoken]

lemma strip_sameBut (c : Config) (r : Request) :
    r.SameBut [.authorization, .securityToken] (strip c r) := by
  refine ⟨rfl, fun n hn => ?_⟩
  simp only [List.mem_cons, List.not_mem_nil, or_false, not_or] at hn
  rw [values_strip, if_pos ⟨hn.1, fun _ => hn.2⟩]

lemma values_strip_authorization (c : Config) (r : Request) :
    (strip c r).headers.values .authorization = [] := by
  rw [values_strip, if_neg fun h => h.1 rfl]

lemma values_strip_securityToken (c : Config) (r : Request) :
    (strip c r).headers.values .securityToken =
      if c.signSecurityToken then r.headers.values .securityToken else [] := by
  have hne : HeaderName.securityToken ≠ .authorization := by decide
  rw [values_strip]
  cases c.signSecurityToken <;> simp [hne]

lemma mem_of_mem_strip {e : HeaderName × HeaderValue} (h : e ∈ (strip c r).headers.entries) :
    e ∈ r.headers.entries := by
  unfold strip at h
  split at h
  · exact List.mem_of_mem_filter h
  · exact List.mem_of_mem_filter (List.mem_of_mem_filter h)

/-- The headers that a directive may touch. -/
def guardNames (directive : Option Checksum.Directive) : List HeaderName :=
  match directive with
  | none => []
  | some d =>
    match d.placement with
    | .header => (HeaderName.ofText? d.headerName).toList
    | .trailer => [.trailer]

lemma not_mem_guardNames {n : HeaderName} (hn : n ≠ .trailer)
    (h : ∀ d ∈ directive, d.placement = .header → HeaderName.ofText? d.headerName ≠ some n) :
    n ∉ guardNames directive := by
  unfold guardNames
  cases directive with
  | none => simp
  | some d =>
    cases hplace : d.placement with
    | header => simpa [hplace] using h d rfl hplace
    | trailer => simpa [hplace] using hn

lemma guardNames_subset_of_mem {n : HeaderName} (h : n ∈ guardNames directive) :
    guardNames directive ⊆ [n] := by
  unfold guardNames at h ⊢
  cases directive with
  | none => simp
  | some d =>
    cases hplace : d.placement with
    | header =>
      simp only [hplace, Option.mem_toList] at h ⊢
      simp [h]
    | trailer => simp_all

/-- A directive finds done what it asks for, puts a header that is missing, or adds a trailer. -/
lemma integrate_eq_ok (h : (integrate directive r).result = .ok s) :
    s = r ∨
      (∃ n v, n ∈ guardNames directive ∧ r.headers.contains n = false ∧
        s = { r with headers := r.headers.insert n v }) ∨
      ∃ v, HeaderName.trailer ∈ guardNames directive ∧
        s = { r with headers := r.headers.append .trailer v } := by
  cases directive with
  | none => cases h; exact .inl rfl
  | some d =>
    simp only [integrate, Integrity.integrate] at h
    cases hplace : d.placement with
    | header =>
      rw [hplace] at h
      rcases Integrity.addHeader_eq_ok h with ⟨-, rfl⟩ | ⟨n, value, v, hn, hmissing, -, -, rfl⟩
      · exact .inl rfl
      · exact .inr (.inl ⟨n, v, by simp [guardNames, hplace, hn], hmissing, rfl⟩)
    | trailer =>
      rw [hplace] at h
      rcases Integrity.announceTrailer_eq_ok h with ⟨-, rfl⟩ | ⟨v, -, -, rfl⟩
      · exact .inl rfl
      · exact .inr (.inr ⟨v, by simp [guardNames, hplace], rfl⟩)

lemma integrate_sameBut (h : (integrate directive r).result = .ok s) :
    r.SameBut (guardNames directive) s := by
  rcases integrate_eq_ok h with rfl | ⟨n, v, hn, -, rfl⟩ | ⟨v, htrailer, rfl⟩
  · exact .refl _ _
  · exact (Request.SameBut.insert_right r n v).mono (List.cons_subset.2 ⟨hn, List.nil_subset _⟩)
  · exact (Request.SameBut.append_right r .trailer v).mono
      (List.cons_subset.2 ⟨htrailer, List.nil_subset _⟩)

lemma values_integrate_of_ne_nil {n : HeaderName} (hn : n ≠ .trailer)
    (h : (integrate directive r).result = .ok s) (hgiven : r.headers.values n ≠ []) :
    s.headers.values n = r.headers.values n := by
  rcases integrate_eq_ok h with rfl | ⟨m, v, -, hmissing, rfl⟩ | ⟨v, -, rfl⟩
  · rfl
  · refine Http.Headers.values_insert_of_ne _ _ _ _ ?_
    rintro rfl
    exact hgiven ((Http.Headers.contains_eq_false_iff _ _).1 hmissing)
  · exact Http.Headers.values_append_of_ne _ _ _ _ hn.symm

lemma addHost_eq_ok (h : addHost r = .ok s) :
    (r.headers.contains .host = true ∧ s = r) ∨
      ∃ a v, r.headers.contains .host = false ∧ r.authority = some a ∧
        HeaderValue.ofText? (hostText a) = some v ∧
        s = { r with headers := r.headers.insert .host v } := by
  unfold addHost at h
  split at h
  · next hhost => exact .inl ⟨hhost, (Except.ok.inj h).symm⟩
  · next hhost =>
    split at h
    · next a hauthority =>
      obtain ⟨v, hv, hs⟩ := Request.putText_eq_ok.1 h
      exact .inr ⟨a, v, by simpa using hhost, hauthority, hv, hs.symm⟩
    · cases h

lemma addHost_of_contains (h : r.headers.contains .host = true) : addHost r = .ok r := by
  rw [addHost, if_pos h]
  rfl

lemma addHost_spec (h : addHost r = .ok s) :
    r.SameBut [.host] s ∧ s.headers.contains .host = true := by
  rcases addHost_eq_ok h with ⟨hhost, rfl⟩ | ⟨a, v, -, -, -, rfl⟩
  · exact ⟨.refl _ _, hhost⟩
  · exact ⟨.insert_right r .host v, Http.Headers.contains_insert_self _ _ _⟩

lemma groundwork_eq_ok : groundwork c directive r = .ok (s, hash) ↔
    ∃ guarded hashed, (integrate directive (strip c r)).result = .ok guarded ∧
      Integrity.resolveHash c (hasTrailer directive) guarded = .ok (hashed, hash) ∧
      addHost hashed = .ok s := by
  constructor
  · intro h
    obtain ⟨guarded, hguarded, h⟩ := Outcome.bind_eq_ok.1 h
    obtain ⟨⟨hashed, hash'⟩, hhashed, h⟩ := Outcome.bind_eq_ok.1 h
    obtain ⟨hosted, hhosted, h⟩ := Outcome.bind_eq_ok.1 h
    cases h
    exact ⟨guarded, hashed, hguarded, hhashed, hhosted⟩
  · rintro ⟨guarded, hashed, hguarded, hhashed, hhosted⟩
    rw [groundwork, hguarded, Outcome.ok_bind, hhashed, Outcome.ok_bind]
    simp only [hhosted, Outcome.ok_bind]
    rfl

/-- **What the groundwork touches**: a guard of the payload, its hash and the host. -/
lemma groundwork_spec (h : groundwork c directive r = .ok (s, hash)) :
    (strip c r).SameBut (guardNames directive ++ [.contentHash, .host]) s ∧
      Integrity.IsSettled c (hasTrailer directive) s hash ∧ s.headers.contains .host = true := by
  obtain ⟨guarded, hashed, hguarded, hhashed, hhosted⟩ := groundwork_eq_ok.1 h
  obtain ⟨hhash, hsettled, -⟩ := Integrity.resolveHash_spec hhashed
  obtain ⟨hhost, hcontains⟩ := addHost_spec hhosted
  refine ⟨?_, hsettled.congr (hhost.values _ (by decide)) hhost.payload, hcontains⟩
  have hguard := integrate_sameBut hguarded
  exact (hguard.mono (by simp)).trans ((hhash.mono (by simp)).trans (hhost.mono (by simp)))

lemma putHidden_eq_ok {n : HeaderName} {value : String} :
    putHidden r n value = .ok s ↔ ∃ v, HeaderValue.ofText? value = some v ∧
      { r with headers := r.headers.insert n v.hide } = s := by
  rw [putHidden, Outcome.bind_eq_ok]
  simp only [Request.writeValue_eq_ok, pure, Except.pure, Except.ok.injEq]

lemma putHidden_sameBut {n : HeaderName} {value : String} (h : putHidden r n value = .ok s) :
    r.SameBut [n] s := by
  obtain ⟨v, -, rfl⟩ := putHidden_eq_ok.1 h
  exact .insert_right r n v.hide

lemma alike_putHidden {R : Request → Request → Prop} {n : HeaderName}
    (h : ∀ v, R { r with headers := r.headers.insert n v }
      { s with headers := s.headers.insert n v }) (value : String) :
    Outcome.Alike R (putHidden r n value) (putHidden s n value) := by
  unfold putHidden
  exact .bind_of_eq rfl fun v => .ok (h v.hide)

lemma addDated_spec (h : addDated c credential now r = .ok s) :
    r.SameBut (if c.signSecurityToken then [.date, .securityToken] else [.date]) s ∧
      ∃ v, HeaderValue.ofText? now.stamp = some v ∧ s.headers.values .date = [v] := by
  obtain ⟨dated, hdated, h⟩ := Outcome.bind_eq_ok.1 h
  have hdate := Request.SameBut.of_putText hdated
  obtain ⟨v, hv, rfl⟩ := Request.putText_eq_ok.1 hdated
  cases hmode : c.signSecurityToken with
  | false =>
    rw [hmode] at h
    cases h
    exact ⟨hdate, v, hv, Http.Headers.values_insert_self _ _ _⟩
  | true =>
    rw [hmode] at h
    cases htoken : credential.sessionToken with
    | none =>
      rw [htoken] at h
      cases h
      exact ⟨hdate.mono (by simp), v, hv, Http.Headers.values_insert_self _ _ _⟩
    | some token =>
      rw [htoken] at h
      have hsigned := putHidden_sameBut h
      refine ⟨(hdate.mono (by simp)).trans (hsigned.mono (by simp)), v, hv, ?_⟩
      rw [hsigned.values _ (by decide), Http.Headers.values_insert_self]

lemma addDated_sameBut_token {d : Config} {other : Credential} {s t u : Request}
    (h : r.SameBut [.securityToken] s) (hr : addDated c credential now r = .ok t)
    (hs : addDated d other now s = .ok u) : t.SameBut [.securityToken] u := by
  obtain ⟨hrt, v, hv, ht⟩ := addDated_spec hr
  obtain ⟨hsu, w, hw, hu⟩ := addDated_spec hs
  obtain rfl : v = w := Option.some.inj (hv.symm.trans hw)
  have htu : t.SameBut [.date, .securityToken] u := by
    refine ((hrt.mono ?_).symm).trans ((h.mono ?_).trans (hsu.mono ?_))
    · split <;> simp
    · simp
    · split <;> simp
  exact htu.tighten (hu.trans ht.symm)

lemma attachToken_sameBut {earlier : Option HeaderValue}
    (h : attachToken credential earlier r = .ok s) : r.SameBut [.securityToken] s := by
  unfold attachToken at h
  split at h
  · exact putHidden_sameBut h
  · cases h; exact .insert_right r _ _
  · cases h; exact .refl _ _

lemma attach_spec {earlier : Option HeaderValue} {text : String}
    (h : attach c credential earlier text r = .ok s) :
    r.SameBut (if c.signSecurityToken then [.authorization] else [.authorization, .securityToken])
        s ∧
      ∃ v, HeaderValue.ofText? text = some v ∧ s.headers.values .authorization = [v.hide] := by
  obtain ⟨sent, hsent, h⟩ := Outcome.bind_eq_ok.1 h
  have hauth := putHidden_sameBut hsent
  obtain ⟨v, hv, rfl⟩ := putHidden_eq_ok.1 hsent
  cases hmode : c.signSecurityToken with
  | true =>
    simp only [hmode, if_true] at h
    cases h
    exact ⟨hauth, v, hv, Http.Headers.values_insert_self _ _ _⟩
  | false =>
    simp only [hmode, Bool.false_eq_true, if_false] at h
    have htoken := attachToken_sameBut h
    refine ⟨(hauth.mono (by simp)).trans (htoken.mono (by simp)), v, hv, ?_⟩
    rw [htoken.values _ (by decide), Http.Headers.values_insert_self]

lemma attach_token_of_some {earlier : Option HeaderValue} {text token : String}
    (hmode : c.signSecurityToken = false) (htoken : credential.sessionToken = some token)
    (h : attach c credential earlier text r = .ok s) :
    ∃ v, HeaderValue.ofText? token = some v ∧ s.headers.values .securityToken = [v.hide] := by
  obtain ⟨sent, -, h⟩ := Outcome.bind_eq_ok.1 h
  simp only [hmode, Bool.false_eq_true, if_false, attachToken, htoken] at h
  obtain ⟨v, hv, rfl⟩ := putHidden_eq_ok.1 h
  exact ⟨v, hv, Http.Headers.values_insert_self _ _ _⟩

lemma attach_token_of_none {earlier : Option HeaderValue} {text : String}
    (hmode : c.signSecurityToken = false) (hnone : credential.sessionToken = none)
    (h : attach c credential earlier text r = .ok s) :
    s.headers.values .securityToken =
      earlier.elim (r.headers.values .securityToken) fun v => [v.hide] := by
  obtain ⟨sent, hsent, h⟩ := Outcome.bind_eq_ok.1 h
  simp only [hmode, Bool.false_eq_true, if_false, attachToken, hnone] at h
  cases earlier with
  | some v => cases h; exact Http.Headers.values_insert_self _ _ _
  | none => cases h; exact (putHidden_sameBut hsent).values _ (by decide)

/-! ### A signature that came about -/

/-- The stages of a signature that came about, and what each of them yielded. -/
structure Stages (c : Config) (r : Request) (credential : Credential)
    (directive : Option Checksum.Directive) (now : Instant) (signed : Request)
    (out : SigningOutput) where
  scope : Scope
  ground : Request
  hash : String
  prepared : Request
  canonical : CanonicalRequest
  opened : opening c credential now = .ok scope
  grounded : groundwork c directive r = .ok (ground, hash)
  dated : addDated c credential now ground = .ok prepared
  formed : CanonicalRequest.ofRequest c prepared hash = .ok canonical
  attached : attach c credential (earlierToken c r)
    (authorization credential.accessKeyId scope out.signedHeaders out.signature) prepared =
      .ok signed
  out_eq : out = outputOf credential now scope canonical

/-- **A signature comes about exactly by its stages.** -/
lemma calculate_eq_ok {signed : Request} {out : SigningOutput} :
    (calculate c r credential directive now).result = .ok (signed, out) ↔
      Nonempty (Stages c r credential directive now signed out) := by
  rw [calculate_result, prepare_result]
  constructor
  · intro h
    obtain ⟨scope, opened, h⟩ := Outcome.bind_eq_ok.1 h
    obtain ⟨⟨prepared, hash⟩, hprepared, h⟩ := Outcome.bind_eq_ok.1 h
    obtain ⟨⟨ground, hash'⟩, grounded, hprepared⟩ := Outcome.bind_eq_ok.1 hprepared
    obtain ⟨dated, hdated, hprepared⟩ := Outcome.bind_eq_ok.1 hprepared
    obtain ⟨rfl, rfl⟩ := Prod.mk.inj (Except.ok.inj hprepared)
    obtain ⟨canonical, formed, h⟩ := Outcome.bind_eq_ok.1 h
    obtain ⟨sent, attached, h⟩ := Outcome.bind_eq_ok.1 h
    obtain ⟨rfl, rfl⟩ := Prod.mk.inj (Except.ok.inj h)
    exact ⟨⟨scope, ground, _, _, canonical, opened, grounded, hdated, formed, attached, rfl⟩⟩
  · rintro ⟨st⟩
    obtain ⟨scope, ground, hash, prepared, canonical, opened, grounded, dated, formed, attached,
      rfl⟩ := st
    have hattached : attach c credential (earlierToken c r) (authorization credential.accessKeyId
        scope (outputOf credential now scope canonical).signedHeaders
        (outputOf credential now scope canonical).signature) prepared = .ok signed := attached
    rw [opened, Outcome.ok_bind, grounded, Outcome.ok_bind, dated, Outcome.ok_bind,
      Outcome.ok_bind, closing, formed, Outcome.ok_bind]
    simp only [hattached, Outcome.ok_bind]
    rfl

lemma isVisible_authorization {id names signature : String} (hid : Http.IsVisible id)
    (hregion : Http.IsVisible c.region) (hservice : Http.IsVisible c.service)
    (hnames : Http.IsVisible names) (hsignature : Http.IsVisible signature) :
    Http.IsVisible (authorization id ⟨now.dateStamp, c.region, c.service⟩ names signature) := by
  have hscope : Http.IsVisible (Scope.mk now.dateStamp c.region c.service).text :=
    ((((((now.isVisible_dateStamp).append (by decide)).append hregion).append
      (by decide)).append hservice).append (by decide)).append (by decide)
  exact (((((((Http.IsVisible.append (by decide) (by decide)).append hid).append
    (by decide)).append hscope).append (by decide)).append hnames).append (by decide)).append
      hsignature

lemma isVisible_signedHeaders {r : Request} {a : CanonicalRequest}
    (h : CanonicalRequest.ofRequest c r hash = .ok a) : Http.IsVisible a.signedHeaders := by
  intro ch hc
  rw [CanonicalRequest.signedHeaders, String.toList_intercalate] at hc
  rcases Joined.mem_intercalate hc with hc | ⟨piece, hpiece, hc⟩
  · have hmark : Http.IsVisible ";" := by decide
    exact hmark ch hc
  · obtain ⟨s, hs, rfl⟩ := List.mem_map.1 hpiece
    obtain ⟨n, rfl⟩ := CanonicalRequest.exists_name_of_mem h hs
    exact n.isVisible_text ch hc

lemma exists_putHidden {n : HeaderName} {value : String} (h : Http.IsVisible value) :
    ∃ s, putHidden r n value = .ok s := by
  obtain ⟨v, hv⟩ := Http.exists_ofText?_of_isVisible h
  exact ⟨_, putHidden_eq_ok.2 ⟨v, hv, rfl⟩⟩

lemma exists_attach {earlier : Option HeaderValue} {text : String} (htext : Http.IsVisible text)
    (htoken : ∀ token ∈ credential.sessionToken, Http.IsVisible token) :
    ∃ s, attach c credential earlier text r = .ok s := by
  obtain ⟨sent, hsent⟩ := exists_putHidden (r := r) (n := .authorization) htext
  rw [attach, hsent, Outcome.ok_bind]
  split
  · exact ⟨_, rfl⟩
  · unfold attachToken
    cases hc : credential.sessionToken with
    | some token => exact exists_putHidden (htoken token hc)
    | none =>
      cases earlier with
      | some v => exact ⟨_, rfl⟩
      | none => exact ⟨_, rfl⟩

/-- **Where a canonical form is reached, a signature is made**, if what it is attached with is
visible. -/
lemma exists_calculate {scope : Scope} {ground prepared : Request} {canonical : CanonicalRequest}
    (opened : opening c credential now = .ok scope)
    (grounded : groundwork c directive r = .ok (ground, hash))
    (dated : addDated c credential now ground = .ok prepared)
    (formed : CanonicalRequest.ofRequest c prepared hash = .ok canonical)
    (hid : Http.IsVisible credential.accessKeyId) (hregion : Http.IsVisible c.region)
    (hservice : Http.IsVisible c.service)
    (htoken : ∀ token ∈ credential.sessionToken, Http.IsVisible token) :
    ∃ signed out, (calculate c r credential directive now).result = .ok (signed, out) := by
  have htext : Http.IsVisible (authorization credential.accessKeyId scope
      (outputOf credential now scope canonical).signedHeaders
      (outputOf credential now scope canonical).signature) := by
    rw [scope_of_opening opened]
    exact isVisible_authorization hid hregion hservice (isVisible_signedHeaders formed)
      (Hex.isVisible_encode _)
  obtain ⟨signed, attached⟩ : ∃ signed, attach c credential (earlierToken c r) _ prepared =
      .ok signed := exists_attach htext htoken
  exact ⟨signed, _, calculate_eq_ok.2
    ⟨⟨scope, ground, hash, prepared, canonical, opened, grounded, dated, formed, attached, rfl⟩⟩⟩

lemma isReadable_of_insert {n : HeaderName} {v : HeaderValue}
    (h : ∀ e ∈ r.headers.entries, e.2.isReadable = true) (hv : v.isReadable = true) :
    ∀ e ∈ (r.headers.insert n v).entries, e.2.isReadable = true := by
  intro e he
  rcases Http.Headers.mem_entries_insert _ _ _ he with he | rfl
  · exact h e he
  · exact hv

lemma exists_getText (n : HeaderName) (hread : ∀ e ∈ r.headers.entries, e.2.isReadable = true) :
    ∃ text?, r.getText n = .ok text? := by
  unfold Request.getText
  cases hfirst : r.headers.get? n with
  | none => exact ⟨none, rfl⟩
  | some v =>
    have hv := hread _ (Http.Headers.mem_entries_of_mem_values (List.mem_of_head? hfirst))
    refine ⟨some (asciiText v.octets), ?_⟩
    simp only [Canonical.readValue_eq, if_pos hv]
    rfl

lemma exists_resolveHash (c : Config) (hasTrailer : Bool)
    (hread : ∀ e ∈ r.headers.entries, e.2.isReadable = true) :
    ∃ s hash, Integrity.resolveHash c hasTrailer r = .ok (s, hash) ∧
      ∀ e ∈ s.headers.entries, e.2.isReadable = true := by
  have hvisible := (Integrity.payloadHash_spec hasTrailer r.payload).1
  obtain ⟨v, hv⟩ := Http.exists_ofText?_of_isVisible hvisible
  have hput : r.putText .contentHash (Integrity.payloadHash hasTrailer r.payload) =
      .ok { r with headers := r.headers.insert .contentHash v } :=
    Request.putText_eq_ok.2 ⟨v, hv, rfl⟩
  obtain ⟨existing, hexisting⟩ := exists_getText .contentHash hread
  rw [Integrity.resolveHash, hexisting, Outcome.ok_bind]
  split
  · exact ⟨r, _, rfl, hread⟩
  · simp only [hput, Outcome.ok_bind]
    split
    · exact ⟨_, _, rfl, isReadable_of_insert hread (Http.isReadable_of_isVisible hvisible hv)⟩
    · exact ⟨r, _, rfl, hread⟩

lemma exists_addDated (hread : ∀ e ∈ r.headers.entries, e.2.isReadable = true)
    (htoken : ∀ token ∈ credential.sessionToken, Http.IsVisible token) :
    ∃ s, addDated c credential now r = .ok s ∧
      ∀ e ∈ s.headers.entries, e.2.isReadable = true := by
  obtain ⟨date, hdate⟩ := Http.exists_ofText?_of_isVisible now.isVisible_stamp
  have hdated : r.putText .date now.stamp = .ok { r with headers := r.headers.insert .date date } :=
    Request.putText_eq_ok.2 ⟨date, hdate, rfl⟩
  have hall : ∀ e ∈ (r.headers.insert .date date).entries, e.2.isReadable = true :=
    isReadable_of_insert hread (Http.isReadable_of_isVisible now.isVisible_stamp hdate)
  rw [addDated, hdated, Outcome.ok_bind]
  split
  · next token _ hsome =>
    have hvisible := htoken token hsome
    obtain ⟨v, hv⟩ := Http.exists_ofText?_of_isVisible hvisible
    have hhidden : v.hide.isReadable = true := by
      rw [HeaderValue.isReadable_hide, Http.isReadable_of_isVisible hvisible hv]
    exact ⟨_, putHidden_eq_ok.2 ⟨v, hv, rfl⟩, isReadable_of_insert hall hhidden⟩
  · exact ⟨_, rfl, hall⟩

lemma exists_calculate_of_groundwork {scope : Scope} {ground : Request} {p : String}
    (opened : opening c credential now = .ok scope)
    (grounded : groundwork c directive r = .ok (ground, hash))
    (hpath : Canonical.path c r = .ok p)
    (hread : ∀ e ∈ ground.headers.entries, e.2.isReadable = true)
    (hid : Http.IsVisible credential.accessKeyId) (hregion : Http.IsVisible c.region)
    (hservice : Http.IsVisible c.service)
    (htoken : ∀ token ∈ credential.sessionToken, Http.IsVisible token) :
    ∃ signed out, (calculate c r credential directive now).result = .ok (signed, out) := by
  obtain ⟨prepared, dated, hprepared⟩ : ∃ s, addDated c credential now ground = .ok s ∧
      ∀ e ∈ s.headers.entries, e.2.isReadable = true := exists_addDated hread htoken
  have hsame : prepared.path = r.path := by
    rw [(addDated_spec dated).1.path, (groundwork_spec grounded).1.path, (strip_sameBut c r).path]
  obtain ⟨canonical, formed⟩ : ∃ a, CanonicalRequest.ofRequest c prepared hash = .ok a :=
    CanonicalRequest.exists_ofRequest ((Canonical.path_congr rfl rfl hsame).trans hpath) hprepared
  exact exists_calculate opened grounded dated formed hid hregion hservice htoken

lemma exists_calculate_of_host {scope : Scope} {p : String}
    (opened : opening c credential now = .ok scope)
    (hhost : r.headers.values .host ≠ []) (hnone : r.headers.values .contentHash = [])
    (hoff : c.contentHashHeader = false) (hpath : Canonical.path c r = .ok p)
    (hread : ∀ e ∈ r.headers.entries, e.2.isReadable = true)
    (hid : Http.IsVisible credential.accessKeyId) (hregion : Http.IsVisible c.region)
    (hservice : Http.IsVisible c.service)
    (htoken : ∀ token ∈ credential.sessionToken, Http.IsVisible token) :
    ∃ signed out, (calculate c r credential none now).result = .ok (signed, out) := by
  have hstrip := strip_sameBut c r
  have hnone' : (strip c r).getText .contentHash = .ok none := by
    rw [Request.getText, Http.Headers.get?, hstrip.values _ (by decide), hnone]
    rfl
  have hashed : Integrity.resolveHash c false (strip c r) = .ok (strip c r, _) :=
    (Integrity.IsSettled.implied hnone' hoff).resolveHash_eq
  have hosted : addHost (strip c r) = .ok (strip c r) := by
    refine addHost_of_contains ((Http.Headers.contains_iff _ _).2 ?_)
    rwa [hstrip.values _ (by decide)]
  have grounded : groundwork c none r = .ok (strip c r, _) :=
    groundwork_eq_ok.2 ⟨strip c r, strip c r, rfl, hashed, hosted⟩
  refine exists_calculate_of_groundwork opened grounded hpath (fun e he => hread e ?_) hid hregion
    hservice htoken
  exact mem_of_mem_strip he

namespace Stages

variable {signed : Request} {out : SigningOutput}

lemma ground_eq {other : Credential} {sent : Request} {out' : SigningOutput}
    (st : Stages c r credential directive now signed out)
    (st' : Stages c r other directive now sent out') :
    st.scope = st'.scope ∧ st.ground = st'.ground ∧ st.hash = st'.hash := by
  refine ⟨by rw [scope_of_opening st.opened, scope_of_opening st'.opened], ?_⟩
  exact Prod.mk.inj (Except.ok.inj (st.grounded.symm.trans st'.grounded))

/-- Date and signed token apart, what is signed is what the groundwork left. -/
lemma values_prepared (st : Stages c r credential directive now signed out) {n : HeaderName}
    (hdate : n ≠ .date) (htoken : c.signSecurityToken = true → n ≠ .securityToken) :
    st.prepared.headers.values n = st.ground.headers.values n := by
  refine (addDated_spec st.dated).1.values n ?_
  cases hmode : c.signSecurityToken with
  | false => simpa using hdate
  | true => simpa using ⟨hdate, htoken hmode⟩

lemma values_ground (st : Stages c r credential directive now signed out) {n : HeaderName}
    (hguard : n ∉ guardNames directive) (hhash : n ≠ .contentHash) (hhost : n ≠ .host) :
    st.ground.headers.values n = (strip c r).headers.values n :=
  (groundwork_spec st.grounded).1.values n (by simp [hguard, hhash, hhost])

/-- Authorization and unsigned token apart, what is sent is what is signed. -/
lemma values_signed (st : Stages c r credential directive now signed out) {n : HeaderName}
    (hauth : n ≠ .authorization) (htoken : c.signSecurityToken = false → n ≠ .securityToken) :
    signed.headers.values n = st.prepared.headers.values n := by
  refine (attach_spec st.attached).1.values n ?_
  cases hmode : c.signSecurityToken with
  | true => simpa using hauth
  | false => simpa using ⟨hauth, htoken hmode⟩

lemma values_contentHash (st : Stages c r credential directive now signed out) :
    signed.headers.values .contentHash = st.ground.headers.values .contentHash := by
  rw [st.values_signed (by decide) fun _ => by decide,
    st.values_prepared (by decide) fun _ => by decide]

lemma exists_values_date (st : Stages c r credential directive now signed out) :
    ∃ v, HeaderValue.ofText? now.stamp = some v ∧ signed.headers.values .date = [v] := by
  obtain ⟨-, v, hv, hdate⟩ := addDated_spec st.dated
  exact ⟨v, hv, (st.values_signed (by decide) fun _ => by decide).trans hdate⟩

lemma values_prepared_authorization (st : Stages c r credential directive now signed out)
    (hauth : HeaderName.authorization ∉ guardNames directive) :
    st.prepared.headers.values .authorization = [] := by
  rw [st.values_prepared (by decide) fun _ => by decide,
    st.values_ground hauth (by decide) (by decide), values_strip_authorization]

lemma values_prepared_securityToken (st : Stages c r credential directive now signed out)
    (htoken : HeaderName.securityToken ∉ guardNames directive)
    (hmode : c.signSecurityToken = false) :
    st.prepared.headers.values .securityToken = [] := by
  rw [st.values_prepared (by decide) (by simp [hmode]),
    st.values_ground htoken (by decide) (by decide), values_strip_securityToken, hmode]
  rfl

lemma exists_values_prepared_securityToken (st : Stages c r credential directive now signed out)
    {token : String} (hmode : c.signSecurityToken = true)
    (htoken : credential.sessionToken = some token) :
    ∃ v, HeaderValue.ofText? token = some v ∧
      st.prepared.headers.values .securityToken = [v.hide] := by
  have hdated := st.dated
  rw [addDated, hmode, htoken] at hdated
  obtain ⟨dated, -, hput⟩ := Outcome.bind_eq_ok.1 hdated
  obtain ⟨v, hv, hprepared⟩ := putHidden_eq_ok.1 hput
  exact ⟨v, hv, by rw [← hprepared, Http.Headers.values_insert_self]⟩

lemma exists_values_securityToken (st : Stages c r credential directive now signed out)
    {token : String} (htoken : credential.sessionToken = some token) :
    ∃ v, HeaderValue.ofText? token = some v ∧
      signed.headers.values .securityToken = [v.hide] := by
  cases hmode : c.signSecurityToken with
  | true =>
    rw [st.values_signed (by decide) (by simp [hmode])]
    exact st.exists_values_prepared_securityToken hmode htoken
  | false => exact attach_token_of_some hmode htoken st.attached

lemma values_securityToken_of_signed (st : Stages c r credential directive now signed out)
    (hmode : c.signSecurityToken = true) (hnone : credential.sessionToken = none) :
    signed.headers.values .securityToken = st.ground.headers.values .securityToken := by
  rw [st.values_signed (by decide) (by simp [hmode])]
  have hdated := st.dated
  unfold addDated at hdated
  rw [hmode, hnone] at hdated
  obtain ⟨u, hu, h⟩ := Outcome.bind_eq_ok.1 hdated
  cases h
  exact (Request.SameBut.of_putText hu).values _ (by decide)

lemma values_securityToken_of_unsigned (st : Stages c r credential directive now signed out)
    (hmode : c.signSecurityToken = false) (hnone : credential.sessionToken = none) :
    signed.headers.values .securityToken =
      (r.headers.get? .securityToken).elim (st.ground.headers.values .securityToken)
        fun v => [v.hide] := by
  rw [attach_token_of_none hmode hnone st.attached, earlierToken, hmode,
    st.values_prepared (by decide) (by simp [hmode])]
  rfl

/-- **Every header that has a value when the canonical form is taken is sent as it is**: what is
attached after it has none then. -/
lemma values_signed_of_ne_nil (st : Stages c r credential directive now signed out)
    (hauth : HeaderName.authorization ∉ guardNames directive)
    (htoken : HeaderName.securityToken ∉ guardNames directive) {n : HeaderName}
    (hn : st.prepared.headers.values n ≠ []) :
    signed.headers.values n = st.prepared.headers.values n := by
  refine st.values_signed ?_ ?_
  · rintro rfl
    exact hn (st.values_prepared_authorization hauth)
  · rintro hmode rfl
    exact hn (st.values_prepared_securityToken htoken hmode)

lemma rest (st : Stages c r credential directive now signed out) :
    signed = { r with headers := signed.headers } := by
  rw [(attach_spec st.attached).1.rest, (addDated_spec st.dated).1.rest,
    (groundwork_spec st.grounded).1.rest, (strip_sameBut c r).rest]

end Stages

lemma sign_keyed (c : Config) (now : Instant) (r : Request) (credential : Credential)
    (directive : Option Checksum.Directive) :
    (sign c now r (.keyed credential) directive).result =
      (calculate c r credential directive now).result.map Prod.fst := by
  unfold sign
  rw [Signing.result_bind]
  cases (calculate c r credential directive now).result with
  | error e => rfl
  | ok p => rfl

lemma sign_keyed_eq_ok :
    (sign c now r (.keyed credential) directive).result = .ok signed ↔
      ∃ out, (calculate c r credential directive now).result = .ok (signed, out) := by
  rw [sign_keyed, Outcome.map_eq_ok, Prod.exists, exists_comm]
  exact exists_congr fun out => exists_eq_right

/-- **Whoever a request is signed for, only its headers change.** -/
lemma sign_rest {signed : Request} {identity : Identity}
    (h : (sign c now r identity directive).result = .ok signed) :
    signed = { r with headers := signed.headers } := by
  cases identity with
  | anonymous => cases h; rfl
  | keyed credential =>
    obtain ⟨out, hcalculate⟩ := sign_keyed_eq_ok.1 h
    obtain ⟨st⟩ := calculate_eq_ok.1 hcalculate
    exact st.rest

end SigV4.Signer
