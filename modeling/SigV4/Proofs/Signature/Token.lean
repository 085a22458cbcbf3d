import Mathlib
import SigV4.Proofs.Signature.Lockstep

/-!
What is sent of a session token.

Whether the token is signed should not matter to what is sent. It does not for any other header,
and it does not where the credential has a token, for that one replaces all others either way. A
token that the request came with is another matter: when tokens are signed it stays, with all its
values and as visible as it was; when they are not, it is taken off and put back, and then only its
first value comes back, and hidden.
-/

namespace SigV4.Signer

open Http (HeaderName HeaderValue)
open Outcome (Alike)
open Request (SameBut)

variable {c : Config} {r s t r' s' : Request} {credential : Credential} {now : Instant}
  {hash hash' : String} {directive : Option Checksum.Directive} {out out' : SigningOutput}

/-! ### Before the date -/

lemma strip_sameBut_strip (c : Config) (r : Request) :
    (strip (c.withSignSecurityToken true) r).SameBut [.securityToken]
      (strip (c.withSignSecurityToken false) r) :=
  .erase_right _ .securityToken

lemma strip_sameBut_strip_of_nil (c : Config) (hnil : r.headers.values .securityToken = []) :
    (strip (c.withSignSecurityToken true) r).SameBut []
      (strip (c.withSignSecurityToken false) r) := by
  refine (strip_sameBut_strip c r).tighten ?_
  rw [values_strip_securityToken, values_strip_securityToken, hnil]
  simp

lemma integrate_sameBut_token (h : r.SameBut [.securityToken] s)
    (hr : (integrate directive r).result = .ok r') (hs : (integrate directive s).result = .ok s') :
    r'.SameBut [.securityToken] s' := by
  by_cases htoken : HeaderName.securityToken ∈ guardNames directive
  · have honly : guardNames directive ⊆ [.securityToken] := guardNames_subset_of_mem htoken
    exact ((integrate_sameBut hr).mono honly).symm.trans
      (h.trans ((integrate_sameBut hs).mono honly))
  · have hR : Lockstep (guardNames directive) (SameBut [.securityToken]) :=
      lockstep_sameBut (fun n hn hmem => htoken (List.mem_singleton.1 hmem ▸ hn)) (by decide)
    exact (integrate_alike hR (List.Subset.refl _) h).rel_of_ok hr hs

/-- **Whether tokens are signed, the groundwork differs in the token at most**, and it does not
differ at all if the request came without one. -/
lemma ground_sameBut_token
    (hr : groundwork (c.withSignSecurityToken true) directive r = .ok (s, hash))
    (hs : groundwork (c.withSignSecurityToken false) directive r = .ok (t, hash')) :
    s.SameBut [.securityToken] t ∧
      (r.headers.values .securityToken = [] → s.SameBut [] t) := by
  obtain ⟨guarded, hashed, hguarded, hhashed, hhosted⟩ := groundwork_eq_ok.1 hr
  obtain ⟨guarded', hashed', hguarded', hhashed', hhosted'⟩ := groundwork_eq_ok.1 hs
  have hR : Lockstep [.host] (SameBut [.securityToken]) := lockstep_sameBut (by decide) (by decide)
  have hguard := integrate_sameBut_token (strip_sameBut_strip c r) hguarded hguarded'
  have hhash := (resolveHash_alike hR rfl hguard (hasTrailer directive)).rel_of_ok hhashed hhashed'
  refine ⟨(addHost_alike hR (by simp) hhash.1).rel_of_ok hhosted hhosted', fun hnil => ?_⟩
  have hall : Lockstep (.host :: guardNames directive) (SameBut []) :=
    lockstep_sameBut (by simp) (by simp)
  have halike : Alike (fun p q => p.1.SameBut [] q.1 ∧ p.2 = q.2)
      (groundwork (c.withSignSecurityToken true) directive r)
      (groundwork (c.withSignSecurityToken false) directive r) :=
    groundwork_alike hall (List.subset_cons_self _ _) List.mem_cons_self rfl
      (strip_sameBut_strip_of_nil c hnil)
  exact (halike.rel_of_ok hr hs).1

namespace Stages

lemma values_ground_securityToken (st : Stages c r credential directive now s out)
    (hmode : c.signSecurityToken = true) (hgiven : r.headers.values .securityToken ≠ []) :
    st.ground.headers.values .securityToken = r.headers.values .securityToken := by
  obtain ⟨guarded, hashed, hguarded, hhashed, hhosted⟩ := groundwork_eq_ok.1 st.grounded
  have hstrip : (strip c r).headers.values .securityToken = r.headers.values .securityToken := by
    rw [values_strip_securityToken, hmode, if_pos rfl]
  rw [(addHost_spec hhosted).1.values _ (by decide),
    (Integrity.resolveHash_spec hhashed).1.values _ (by decide),
    values_integrate_of_ne_nil (by decide) hguarded (hstrip ▸ hgiven), hstrip]

end Stages

/-! ### What is sent -/

lemma sent_sameBut
    (st : Stages (c.withSignSecurityToken true) r credential directive now s out)
    (st' : Stages (c.withSignSecurityToken false) r credential directive now t out') :
    s.SameBut [.authorization, .securityToken] t := by
  have hground := (ground_sameBut_token st.grounded st'.grounded).1
  have hdated := addDated_sameBut_token hground st.dated st'.dated
  refine ((attach_spec st.attached).1.mono ?_).symm.trans
    ((hdated.mono (by simp)).trans ((attach_spec st'.attached).1.mono ?_))
  · split <;> simp
  · split <;> simp

/-- **When a token that the request came with is sent alike**: if a credential has one that takes
its place, or if it is one value that is hidden already. -/
lemma values_securityToken_eq_iff
    (st : Stages (c.withSignSecurityToken true) r credential directive now s out)
    (st' : Stages (c.withSignSecurityToken false) r credential directive now t out') :
    t.headers.values .securityToken = s.headers.values .securityToken ↔
      credential.sessionToken.isSome = true ∨ r.headers.values .securityToken = [] ∨
        ∃ v, v.sensitive = true ∧ r.headers.values .securityToken = [v] := by
  cases hcredential : credential.sessionToken with
  | some token =>
    obtain ⟨v, hv, hs⟩ := st.exists_values_securityToken hcredential
    obtain ⟨w, hw, ht⟩ := st'.exists_values_securityToken hcredential
    obtain rfl : v = w := Option.some.inj (hv.symm.trans hw)
    simp [hs, ht]
  | none =>
    rw [st.values_securityToken_of_signed rfl hcredential,
      st'.values_securityToken_of_unsigned rfl hcredential, Http.Headers.get?]
    cases hgiven : r.headers.values .securityToken with
    | nil =>
      have hground := (ground_sameBut_token st.grounded st'.grounded).2 hgiven
      simpa using hground.values .securityToken (by simp)
    | cons v vs =>
      have hkept := st.values_ground_securityToken rfl (by simp [hgiven])
      rw [hkept, hgiven, List.head?_cons, Option.elim]
      simp only [Option.isSome_none, Bool.false_eq_true, false_or, List.cons.injEq,
        List.cons_ne_nil, HeaderValue.hide_eq_self_iff]
      constructor
      · rintro ⟨hhidden, rfl⟩
        exact ⟨v, hhidden, rfl, rfl⟩
      · rintro ⟨w, hhidden, rfl, rfl⟩
        exact ⟨hhidden, rfl⟩

lemma exists_calculate_both {scope : Scope} {p : String}
    (opened : opening c credential now = .ok scope)
    (hhost : r.headers.values .host ≠ []) (hnone : r.headers.values .contentHash = [])
    (hoff : c.contentHashHeader = false) (hpath : Canonical.path c r = .ok p)
    (hread : ∀ e ∈ r.headers.entries, e.2.isReadable = true)
    (hid : Http.IsVisible credential.accessKeyId) (hregion : Http.IsVisible c.region)
    (hservice : Http.IsVisible c.service)
    (htoken : ∀ token ∈ credential.sessionToken, Http.IsVisible token) :
    ∃ s out t out',
      (calculate (c.withSignSecurityToken true) r credential none now).result = .ok (s, out) ∧
      (calculate (c.withSignSecurityToken false) r credential none now).result = .ok (t, out') := by
  have hsign (on : Bool) : ∃ s out,
      (calculate (c.withSignSecurityToken on) r credential none now).result = .ok (s, out) :=
    exists_calculate_of_host opened hhost hnone hoff hpath hread hid hregion hservice htoken
  obtain ⟨s, out, hs⟩ := hsign true
  obtain ⟨t, out', ht⟩ := hsign false
  exact ⟨s, out, t, out', hs, ht⟩

/-- **What signing the token changes in what is sent.** The authorization, and a token that the
request came with: where no credential's token takes its place, all its values are sent as they
are if tokens are signed, and otherwise the first of them, hidden. -/
theorem sent_sameBut_iff
    (hs : (calculate (c.withSignSecurityToken true) r credential directive now).result =
      .ok (s, out))
    (ht : (calculate (c.withSignSecurityToken false) r credential directive now).result =
      .ok (t, out')) :
    s.SameBut [.authorization, .securityToken] t ∧
      (s.SameBut [.authorization] t ↔
        credential.sessionToken.isSome = true ∨ r.headers.values .securityToken = [] ∨
          ∃ v, v.sensitive = true ∧ r.headers.values .securityToken = [v]) := by
  obtain ⟨st⟩ := calculate_eq_ok.1 hs
  obtain ⟨st'⟩ := calculate_eq_ok.1 ht
  have hsame := sent_sameBut st st'
  refine ⟨hsame, Iff.trans ⟨fun h => h.values _ (by decide), fun h => ?_⟩
    (values_securityToken_eq_iff st st')⟩
  have hswapped : s.SameBut [.securityToken, .authorization] t := hsame.mono (by simp)
  exact hswapped.tighten h

/-- A request that came with one token, hidden, signed with a credential that has none. -/
theorem sent_sameBut_of_hidden :
    let c := Config.forService "demo" "us-east-1"
    let host : HeaderValue := ⟨utf8 "h", false, by decide⟩
    let token : HeaderValue := ⟨utf8 "token", true, by decide⟩
    let r := Request.ofHead ⟨.get, .origin ⟨"/", none⟩, ⟨[(.host, host), (.securityToken, token)]⟩⟩
      .unsigned
    let credential := Credential.ofKeys "id" "key"
    let now : Instant := ⟨⟨2015, 8, 30, by decide, by decide⟩, 12, 36, 0, 0, by decide, by decide,
      by decide, by decide⟩
    ∃ s out t out',
      (calculate (c.withSignSecurityToken true) r credential none now).result = .ok (s, out) ∧
      (calculate (c.withSignSecurityToken false) r credential none now).result = .ok (t, out') ∧
      s.SameBut [.authorization] t := by
  intro c host token r credential now
  have opened : opening c credential now = .ok ⟨"20150830", "us-east-1", "demo"⟩ := by cbv
  have hpath : Canonical.path c r = .ok "/" := by cbv
  obtain ⟨s, out, t, out', hs, ht⟩ := exists_calculate_both opened (by decide) (by decide) rfl hpath
    (by decide) (by decide) (by decide) (by decide) (by decide)
  have hsent := (sent_sameBut_iff hs ht).2.2 (.inr (.inr ⟨token, rfl, by decide⟩))
  exact ⟨s, out, t, out', hs, ht, hsent⟩

/-- A request that came with two tokens: both are sent if they are signed, and one if not. -/
theorem sent_ne_of_two_tokens :
    let c := Config.forService "demo" "us-east-1"
    let host : HeaderValue := ⟨utf8 "h", false, by decide⟩
    let first : HeaderValue := ⟨utf8 "a", false, by decide⟩
    let second : HeaderValue := ⟨utf8 "b", false, by decide⟩
    let r := Request.ofHead ⟨.get, .absolute .http ⟨"h"⟩ ⟨"/", none⟩,
      ⟨[(.host, host), (.securityToken, first), (.securityToken, second)]⟩⟩ .unsigned
    let credential := Credential.ofKeys "id" "key"
    let now : Instant := ⟨⟨2015, 8, 30, by decide, by decide⟩, 12, 36, 0, 0, by decide, by decide,
      by decide, by decide⟩
    ∃ s out t out',
      (calculate (c.withSignSecurityToken true) r credential none now).result = .ok (s, out) ∧
      (calculate (c.withSignSecurityToken false) r credential none now).result = .ok (t, out') ∧
      t.headers.values .securityToken ≠ s.headers.values .securityToken := by
  intro c host first second r credential now
  have opened : opening c credential now = .ok ⟨"20150830", "us-east-1", "demo"⟩ := by cbv
  have hpath : Canonical.path c r = .ok "/" := by cbv
  obtain ⟨s, out, t, out', hs, ht⟩ := exists_calculate_both opened (by decide) (by decide) rfl hpath
    (by decide) (by decide) (by decide) (by decide) (by decide)
  obtain ⟨st⟩ := calculate_eq_ok.1 hs
  obtain ⟨st'⟩ := calculate_eq_ok.1 ht
  refine ⟨s, out, t, out', hs, ht, fun heq => ?_⟩
  have hgiven : r.headers.values .securityToken = [first, second] := by decide
  have hsent := (values_securityToken_eq_iff st st').1 heq
  simp [hgiven, credential, Credential.ofKeys] at hsent

end SigV4.Signer
