import Mathlib
import SigV4.Proofs.Signature.Stages

/-!
What becomes of a checksum header.

The header that guards the payload is written before all others, and four later steps write headers
too. None of them touches a name that is not the signer's own, and the host is only written where
there is none, so a checksum stays as it was put. Under a name of the signer it is another matter:
authorization, date and token are replaced whoever put them there, and a hash that reads as the
placeholder asks to be replaced.
-/

namespace SigV4.Signer

open Checksum (Directive)
open Http (HeaderName HeaderValue)
open Integrity (addHeader asksForHash headerChecksum payloadHash resolveHash)

variable {c : Config} {r s : Request} {credential : Credential} {now : Instant} {hash : String}
  {d : Directive} {n : HeaderName} {vs us : List HeaderValue} {signed : Request}
  {out : SigningOutput}

/-! ### What is asked for, and what overrules it -/

/-- What a directive asks to be sent under a name: the values that the request has there, or else
one value, which is its own or the checksum of a payload in memory. -/
inductive Asked (d : Directive) (n : HeaderName) (r : Request) : List HeaderValue → Prop
  | kept (given : r.headers.values n ≠ []) : Asked d n r (r.headers.values n)
  | own {value : String} {v : HeaderValue} (missing : r.headers.values n = [])
      (known : d.value = some value) (written : HeaderValue.ofText? value = some v) :
      Asked d n r [v]
  | computed {bs : Octets} {v : HeaderValue} (missing : r.headers.values n = [])
      (unknown : d.value = none) (memory : r.payload.octets? = some bs)
      (written : HeaderValue.ofText? (d.algorithm.compute bs) = some v) : Asked d n r [v]

/-- What the signer sends under names of its own, whatever is asked for there: the authorization,
the date, the token of the credential, and the hash of the payload where the first value is the
placeholder for it. -/
inductive Overruled (c : Config) (r : Request) (credential : Credential) (now : Instant)
    (out : SigningOutput) : HeaderName → List HeaderValue → String → Prop
  | authorization (vs : List HeaderValue) : Overruled c r credential now out .authorization vs
      (authorization credential.accessKeyId ⟨now.dateStamp, c.region, c.service⟩ out.signedHeaders
        out.signature)
  | date (vs : List HeaderValue) : Overruled c r credential now out .date vs now.stamp
  | token {text : String} (vs : List HeaderValue) (own : credential.sessionToken = some text) :
      Overruled c r credential now out .securityToken vs text
  | hash {vs : List HeaderValue} (wanted : asksForHash vs = true) :
      Overruled c r credential now out .contentHash vs (payloadHash false r.payload)

/-- What is asked for under a name is sent, unless the signer overrules it. A token that came with
the request and is not signed is hidden when it is sent, and several of them are left aside. -/
structure IsSent (c : Config) (r : Request) (credential : Credential) (now : Instant)
    (out : SigningOutput) (n : HeaderName) (vs : List HeaderValue) (signed : Request) : Prop where
  overruled : ∀ text, Overruled c r credential now out n vs text →
    ∃ v, v.octets = utf8 text ∧ signed.headers.values n = [v]
  kept : (∀ text, ¬ Overruled c r credential now out n vs text) →
    (n = .securityToken → c.signSecurityToken = true ∨ r.headers.values n = []) →
      signed.headers.values n = vs
  hidden : (∀ text, ¬ Overruled c r credential now out n vs text) →
    n = .securityToken → c.signSecurityToken = false →
      ∀ v, r.headers.values n = [v] → signed.headers.values n = [v.hide]

lemma Asked.ne_nil (h : Asked d n r vs) : vs ≠ [] := by
  cases h with
  | kept given => exact given
  | own => exact List.cons_ne_nil _ _
  | computed => exact List.cons_ne_nil _ _

lemma Asked.congr (h : Asked d n r vs) (hvalues : s.headers.values n = r.headers.values n)
    (hpayload : s.payload = r.payload) : Asked d n s vs := by
  cases h with
  | kept given => exact hvalues ▸ .kept (hvalues ▸ given)
  | own missing known written => exact .own (hvalues ▸ missing) known written
  | computed missing unknown memory written =>
    exact .computed (hvalues ▸ missing) unknown (hpayload ▸ memory) written

lemma asked_of_addHeader (h : (addHeader d r).result = .ok s) :
    ∃ n, HeaderName.ofText? d.headerName = some n ∧ Asked d n r (s.headers.values n) := by
  rcases Integrity.addHeader_eq_ok h with ⟨hhas, rfl⟩ | ⟨n, value, v, hn, hmissing, hvalue, hv, rfl⟩
  · cases hn : HeaderName.ofText? d.headerName with
    | none =>
      rw [Request.hasHeader, hn] at hhas
      cases hhas
    | some n =>
      rw [Integrity.hasHeader_of_ofText? hn, Http.Headers.contains_iff] at hhas
      exact ⟨n, rfl, .kept hhas⟩
  · have hnil := (Http.Headers.contains_eq_false_iff _ _).1 hmissing
    refine ⟨n, hn, ?_⟩
    rw [Http.Headers.values_insert_self]
    rcases Integrity.headerChecksum_eq_ok.1 hvalue with hknown | ⟨hunknown, bs, hmemory, rfl⟩
    · exact .own hnil hknown hv
    · exact .computed hnil hunknown hmemory hv

lemma Asked.of_strip (h : Asked d n (strip c r) us) :
    ∃ vs, Asked d n r vs ∧
      ((strip c r).headers.values n = r.headers.values n → us = vs) := by
  by_cases hsame : (strip c r).headers.values n = r.headers.values n
  · exact ⟨us, h.congr hsame.symm (strip_sameBut c r).payload.symm, fun _ => rfl⟩
  · refine ⟨_, .kept fun hnil => hsame ?_, fun h => absurd h hsame⟩
    rw [values_strip, hnil]
    split <;> rfl

/-! ### The later steps -/

lemma values_resolveHash_of_real {hasTrailer : Bool}
    (h : resolveHash c hasTrailer r = .ok (s, hash)) (hgiven : r.headers.values n ≠ [])
    (hreal : n = .contentHash → asksForHash (r.headers.values n) = false) :
    s.headers.values n = r.headers.values n := by
  by_cases hn : n = .contentHash
  · subst hn
    cases Integrity.resolution_of_resolveHash h with
    | announced => rfl
    | implied => rfl
    | put wanted =>
      rcases wanted with hwanted | ⟨hnone, -⟩
      · rw [hreal rfl] at hwanted
        cases hwanted
      · exact absurd (List.head?_eq_none_iff.1 hnone) hgiven
  · exact (Integrity.resolveHash_spec h).1.values n (by simpa using hn)

lemma values_resolveHash_of_asks {hasTrailer : Bool}
    (h : resolveHash c hasTrailer r = .ok (s, hash))
    (hwanted : asksForHash (r.headers.values .contentHash) = true) :
    ∃ v, v.octets = utf8 (payloadHash hasTrailer r.payload) ∧
      s.headers.values .contentHash = [v] := by
  cases Integrity.resolution_of_resolveHash h with
  | announced first text real =>
    rw [Integrity.asksForHash_eq_of_text first text, real] at hwanted
    cases hwanted
  | implied missing =>
    rw [asksForHash, List.head?_eq_none_iff.1 missing] at hwanted
    cases hwanted
  | @put v _ value =>
    exact ⟨v, (HeaderValue.ofText?_eq_some value).1, Http.Headers.values_insert_self _ _ _⟩

lemma values_addHost_of_ne_nil (h : addHost r = .ok s) (hgiven : r.headers.values n ≠ []) :
    s.headers.values n = r.headers.values n := by
  rcases addHost_eq_ok h with ⟨-, rfl⟩ | ⟨a, v, hhost, -, -, rfl⟩
  · rfl
  · refine Http.Headers.values_insert_of_ne _ _ _ _ ?_
    rintro rfl
    exact hgiven ((Http.Headers.contains_eq_false_iff _ _).1 hhost)

/-- What the groundwork makes of the values asked for under a name: those that ask for the hash of
the payload give way to it, and all others stay, unless they are dropped with an earlier
signature. -/
structure IsGrounded (c : Config) (r : Request) (n : HeaderName) (vs : List HeaderValue)
    (ground : Request) : Prop where
  kept : (strip c r).headers.values n = r.headers.values n →
    (n = .contentHash → asksForHash vs = false) → ground.headers.values n = vs
  hashed : n = .contentHash → asksForHash vs = true →
    ∃ v, v.octets = utf8 (payloadHash false r.payload) ∧ ground.headers.values n = [v]

/-- **The groundwork starts from what is asked for.** -/
lemma exists_isGrounded {ground : Request} (hplace : d.placement = .header)
    (h : groundwork c (some d) r = .ok (ground, hash)) :
    ∃ n vs, HeaderName.ofText? d.headerName = some n ∧ Asked d n r vs ∧
      IsGrounded c r n vs ground := by
  obtain ⟨guarded, hashed, hguarded, hhashed, hhosted⟩ := groundwork_eq_ok.1 h
  have hpayload : guarded.payload = r.payload :=
    (integrate_sameBut hguarded).payload.trans (strip_sameBut c r).payload
  have htrailer : hasTrailer (some d) = false := by simp [hasTrailer, hplace]
  rw [htrailer] at hhashed
  simp only [integrate, Integrity.integrate, hplace] at hguarded
  obtain ⟨n, hn, hasked⟩ := asked_of_addHeader hguarded
  obtain ⟨vs, hvs, hsame⟩ := hasked.of_strip
  refine ⟨n, vs, hn, hvs, fun hstrip hreal => ?_, ?_⟩
  · rw [← hsame hstrip] at hreal
    have hresolved := values_resolveHash_of_real hhashed hasked.ne_nil hreal
    rw [values_addHost_of_ne_nil hhosted (hresolved ▸ hasked.ne_nil), hresolved, hsame hstrip]
  · rintro rfl hwanted
    rw [← hsame ((strip_sameBut c r).values .contentHash (by decide))] at hwanted
    obtain ⟨v, hv, hput⟩ := values_resolveHash_of_asks hhashed hwanted
    refine ⟨v, hpayload ▸ hv, ?_⟩
    rw [values_addHost_of_ne_nil hhosted (by simp [hput]), hput]

/-! ### What is sent -/

lemma sessionToken_eq_none
    (h : ∀ text, ¬ Overruled c r credential now out .securityToken vs text) :
    credential.sessionToken = none := by
  cases hown : credential.sessionToken with
  | none => rfl
  | some token => exact absurd (.token vs hown) (h token)

namespace Stages

lemma values_of_ground (st : Stages c r credential (some d) now signed out)
    (hauth : n ≠ .authorization) (hdate : n ≠ .date)
    (htoken : n = .securityToken → credential.sessionToken = none ∧
      (c.signSecurityToken = true ∨ r.headers.values n = [])) :
    signed.headers.values n = st.ground.headers.values n := by
  by_cases hn : n = .securityToken
  · subst hn
    obtain ⟨hnone, hmode⟩ := htoken rfl
    cases hsigned : c.signSecurityToken with
    | true => exact st.values_securityToken_of_signed hsigned hnone
    | false =>
      have hmissing := hmode.resolve_left (by simp [hsigned])
      rw [st.values_securityToken_of_unsigned hsigned hnone, Http.Headers.get?, hmissing]
      rfl
  · rw [st.values_signed hauth fun _ => hn, st.values_prepared hdate fun _ => hn]

lemma values_of_overruled {text : String} (st : Stages c r credential (some d) now signed out)
    (hground : IsGrounded c r n vs st.ground)
    (hover : Overruled c r credential now out n vs text) :
    ∃ v, v.octets = utf8 text ∧ signed.headers.values n = [v] := by
  cases hover with
  | authorization =>
    obtain ⟨-, v, hv, hsent⟩ := attach_spec st.attached
    refine ⟨v.hide, ?_, hsent⟩
    rw [HeaderValue.octets_hide, (HeaderValue.ofText?_eq_some hv).1, scope_of_opening st.opened]
  | date =>
    obtain ⟨v, hv, hsent⟩ := st.exists_values_date
    exact ⟨v, (HeaderValue.ofText?_eq_some hv).1, hsent⟩
  | token _ own =>
    obtain ⟨v, hv, hsent⟩ := st.exists_values_securityToken own
    exact ⟨v.hide, (HeaderValue.ofText?_eq_some hv).1, hsent⟩
  | hash wanted =>
    obtain ⟨v, hv, hput⟩ := hground.hashed rfl wanted
    exact ⟨v, hv, st.values_contentHash.trans hput⟩

lemma values_of_not_overruled (st : Stages c r credential (some d) now signed out)
    (hground : IsGrounded c r n vs st.ground)
    (hfree : ∀ text, ¬ Overruled c r credential now out n vs text)
    (hmode : n = .securityToken → c.signSecurityToken = true ∨ r.headers.values n = []) :
    signed.headers.values n = vs := by
  have hauth : n ≠ .authorization := by
    rintro rfl
    exact hfree _ (.authorization vs)
  have hdate : n ≠ .date := by
    rintro rfl
    exact hfree _ (.date vs)
  have hreal : n = .contentHash → asksForHash vs = false := by
    rintro rfl
    by_contra hwanted
    exact hfree _ (.hash (by simpa using hwanted))
  have hstrip : (strip c r).headers.values n = r.headers.values n := by
    rw [values_strip, ite_eq_left_iff]
    intro hdropped
    rw [not_and_or, not_not, Classical.not_imp, not_not] at hdropped
    obtain ⟨hoff, htoken⟩ := hdropped.resolve_left hauth
    exact ((hmode htoken).resolve_left (by simp [hoff])).symm
  rw [st.values_of_ground hauth hdate, hground.kept hstrip hreal]
  rintro rfl
  exact ⟨sessionToken_eq_none hfree, hmode rfl⟩

lemma values_of_hidden {v : HeaderValue} (st : Stages c r credential (some d) now signed out)
    (hfree : ∀ text, ¬ Overruled c r credential now out .securityToken vs text)
    (hmode : c.signSecurityToken = false) (hgiven : r.headers.values .securityToken = [v]) :
    signed.headers.values .securityToken = [v.hide] := by
  rw [st.values_securityToken_of_unsigned hmode (sessionToken_eq_none hfree), Http.Headers.get?,
    hgiven]
  rfl

end Stages

lemma exists_calculate_of_checksum {scope : Scope} {value p : String}
    (opened : opening c credential now = .ok scope) (hplace : d.placement = .header)
    (hname : HeaderName.ofText? d.headerName = some n)
    (hvalue : headerChecksum d r.payload = .ok value) (hvisible : Http.IsVisible value)
    (hhost : r.headers.values .host ≠ []) (hpath : Canonical.path c r = .ok p)
    (hread : ∀ e ∈ r.headers.entries, e.2.isReadable = true)
    (hid : Http.IsVisible credential.accessKeyId) (hregion : Http.IsVisible c.region)
    (hservice : Http.IsVisible c.service)
    (htoken : ∀ token ∈ credential.sessionToken, Http.IsVisible token) :
    ∃ signed out, (calculate c r credential (some d) now).result = .ok (signed, out) := by
  have hstrip := strip_sameBut c r
  have hstripped : (strip c r).headers.values .host ≠ [] := by
    rwa [hstrip.values .host (by decide)]
  obtain ⟨guarded, hguarded, hall⟩ : ∃ guarded, (addHeader d (strip c r)).result = .ok guarded ∧
      ∀ e ∈ guarded.headers.entries, e.2.isReadable = true := by
    have hkept : ∀ e ∈ (strip c r).headers.entries, e.2.isReadable = true :=
      fun e he => hread e (mem_of_mem_strip he)
    cases hmissing : (strip c r).headers.contains n with
    | true =>
      refine ⟨strip c r, ?_, hkept⟩
      rw [Integrity.addHeader_result, Integrity.hasHeader_of_ofText? hname, if_pos hmissing]
    | false =>
      obtain ⟨v, hv⟩ := Http.exists_ofText?_of_isVisible hvisible
      exact ⟨_, Integrity.addHeader_of_missing hname hmissing (hstrip.payload ▸ hvalue) hv,
        isReadable_of_insert hkept (Http.isReadable_of_isVisible hvisible hv)⟩
  have hintegrated : (integrate (some d) (strip c r)).result = .ok guarded := by
    simpa only [integrate, Integrity.integrate, hplace] using hguarded
  obtain ⟨hashed, hash, hhashed, hread'⟩ := exists_resolveHash c (hasTrailer (some d)) hall
  have hgiven : guarded.headers.values .host ≠ [] := by
    rwa [values_integrate_of_ne_nil (by decide) hintegrated hstripped]
  have hhosted : addHost hashed = .ok hashed := by
    refine addHost_of_contains ((Http.Headers.contains_iff _ _).2 ?_)
    rwa [(Integrity.resolveHash_spec hhashed).1.values .host (by decide)]
  have grounded : groundwork c (some d) r = .ok (hashed, hash) :=
    groundwork_eq_ok.2 ⟨guarded, hashed, hintegrated, hhashed, hhosted⟩
  exact exists_calculate_of_groundwork opened grounded hpath hread' hid hregion hservice htoken

/-- **A checksum header reaches the wire.** What is asked for under its name is sent: the values
that the request has there, none of them replaced, or else one value, given or computed. Where the
name is one of the signer's own, the signer may send its own value instead. -/
theorem checksum_header_isSent (hplace : d.placement = .header)
    (h : (calculate c r credential (some d) now).result = .ok (signed, out)) :
    ∃ n vs, HeaderName.ofText? d.headerName = some n ∧ Asked d n r vs ∧
      IsSent c r credential now out n vs signed := by
  obtain ⟨st⟩ := calculate_eq_ok.1 h
  obtain ⟨n, vs, hn, hasked, hground⟩ := exists_isGrounded hplace st.grounded
  refine ⟨n, vs, hn, hasked, ?_⟩
  refine
    { overruled := fun text hover => st.values_of_overruled hground hover
      kept := fun hfree hmode => st.values_of_not_overruled hground hfree hmode
      hidden := ?_ }
  rintro hfree rfl hmode v hgiven
  exact st.values_of_hidden hfree hmode hgiven

/-- Two checksums that a request came with, and another one that the directive knows. -/
theorem checksum_header_isSent_of_given :
    let c := Config.forService "demo" "us-east-1"
    let host : HeaderValue := ⟨utf8 "h", false, by decide⟩
    let first : HeaderValue := ⟨utf8 "AAAAAA==", false, by decide⟩
    let second : HeaderValue := ⟨utf8 "required", true, by decide⟩
    let checksum : HeaderName := ⟨"x-sum", by decide⟩
    let r := Request.ofHead ⟨.get, .absolute .https ⟨"u@h"⟩ ⟨"/", none⟩,
      ⟨[(checksum, first), (.host, host), (checksum, second)]⟩⟩ (.streaming none)
    let d := ((Directive.of .sha1 .header).withHeaderName "X-Sum").withValue "another"
    let credential := (Credential.ofKeys "id" "key").withSessionToken "token"
    let now : Instant := ⟨⟨2015, 8, 30, by decide, by decide⟩, 12, 36, 0, 0, by decide, by decide,
      by decide, by decide⟩
    ∃ signed out n vs, (calculate c r credential (some d) now).result = .ok (signed, out) ∧
      HeaderName.ofText? d.headerName = some n ∧ Asked d n r vs ∧
      IsSent c r credential now out n vs signed := by
  intro c host first second checksum r d credential now
  have opened : opening c credential now = .ok ⟨"20150830", "us-east-1", "demo"⟩ := by cbv
  have hpath : Canonical.path c r = .ok "/" := by cbv
  have hname : HeaderName.ofText? d.headerName = some checksum := by decide
  have hvalue : headerChecksum d r.payload = .ok "another" := rfl
  obtain ⟨signed, out, h⟩ := exists_calculate_of_checksum opened rfl hname hvalue (by decide)
    (by decide) hpath (by decide) (by decide) (by decide) (by decide) (by decide)
  obtain ⟨n, vs, hn, hasked, hsent⟩ := checksum_header_isSent rfl h
  exact ⟨signed, out, n, vs, h, hn, hasked, hsent⟩

/-- Under each of the signer's own names a checksum that the request came with is replaced. -/
theorem checksum_header_ne_given :
    let c := Config.forService "demo" "us-east-1"
    let host : HeaderValue := ⟨utf8 "h", false, by decide⟩
    let given : HeaderValue := ⟨utf8 "required", false, by decide⟩
    let r (n : HeaderName) := Request.ofHead ⟨.get, .absolute .http ⟨"h"⟩ ⟨"/", none⟩,
      ⟨[(.host, host), (n, given)]⟩⟩ .unsigned
    let d (n : HeaderName) := ((Directive.of .crc32 .header).withHeaderName n.text).withValue "sum"
    let credential := (Credential.ofKeys "id" "key").withSessionToken "token"
    let now : Instant := ⟨⟨2015, 8, 30, by decide, by decide⟩, 12, 36, 0, 0, by decide, by decide,
      by decide, by decide⟩
    ∀ n ∈ [HeaderName.authorization, .date, .securityToken, .contentHash],
      HeaderName.ofText? (d n).headerName = some n ∧ (r n).headers.values n = [given] ∧
      ∃ signed out, (calculate c (r n) credential (some (d n)) now).result = .ok (signed, out) ∧
        (signed.headers.values n).map HeaderValue.octets ≠ [given.octets] := by
  intro c host given r d credential now
  have opened : opening c credential now = .ok ⟨"20150830", "us-east-1", "demo"⟩ := by cbv
  have hname : ∀ n ∈ [HeaderName.authorization, .date, .securityToken, .contentHash],
      HeaderName.ofText? (d n).headerName = some n ∧ (r n).headers.values n = [given] ∧
        (r n).headers.values .host = [host] ∧
        ∀ e ∈ (r n).headers.entries, e.2.isReadable = true := by decide
  intro n hn
  obtain ⟨hof, hgiven, hhost, hread⟩ := hname n hn
  refine ⟨hof, hgiven, ?_⟩
  have hpath : Canonical.path c (r n) = .ok "/" := by cbv
  have hvalue : headerChecksum (d n) (r n).payload = .ok "sum" := rfl
  obtain ⟨signed, out, h⟩ := exists_calculate_of_checksum opened rfl hof hvalue (by decide)
    (by simp [hhost]) hpath hread (by decide) (by decide) (by decide) (by decide)
  refine ⟨signed, out, h, fun heq => ?_⟩
  obtain ⟨st⟩ := calculate_eq_ok.1 h
  obtain ⟨m, vs, hm, hasked, hground⟩ := exists_isGrounded rfl st.grounded
  obtain rfl : n = m := Option.some.inj (hof.symm.trans hm)
  have hvs : vs = [given] := by
    cases hasked with
    | kept => exact hgiven
    | own missing | computed missing =>
      rw [hgiven] at missing
      cases missing
  obtain ⟨text, hover, hne⟩ : ∃ text, Overruled c (r n) credential now out n vs text ∧
      utf8 text ≠ given.octets := by
    rw [hvs]
    simp only [List.mem_cons, List.not_mem_nil, or_false] at hn
    rcases hn with rfl | rfl | rfl | rfl
    · refine ⟨_, .authorization _, fun h => ?_⟩
      have hmark : (utf8 algorithm).head? = some 0x41 := by decide
      have hfirst := congrArg List.head? h
      simp only [authorization, utf8_append, List.head?_append, hmark, Option.some_or] at hfirst
      exact absurd hfirst (by decide)
    · exact ⟨_, .date _, by decide⟩
    · exact ⟨"token", .token _ rfl, by decide⟩
    · exact ⟨_, .hash (by decide), by decide⟩
  obtain ⟨v, hv, hsent⟩ := st.values_of_overruled hground hover
  rw [hsent, List.map_singleton, List.singleton_inj, hv] at heq
  exact hne heq

end SigV4.Signer
