import Mathlib
import SigV4.Proofs.Signature.Stages
import SigV4.Proofs.Signature.Trailer

/-!
Signing again.

A request that was signed may be signed once more, by someone else or at another time. The second
round strips what the first one attached and finds in place what the first one added, so it comes
to what it would have come to without the first. The token is the exception: if the second round
has none of its own, it keeps the one of the first.
-/

namespace SigV4.Signer

open Http (HeaderName HeaderValue)
open Outcome (Alike)

variable {c : Config} {r s t : Request} {credential earlier : Credential} {now : Instant}
  {hash : String} {directive : Option Checksum.Directive}

def SameResult (x y : Request × SigningOutput) : Prop := x.1.SameBut [] y.1 ∧ x.2 = y.2

/-! ### The groundwork is laid once -/

/-- A checksum header is found in place. Under the name of the authorization it was stripped, and
is put there again. -/
lemma addHeader_again {d : Checksum.Directive} {n : HeaderName} {guarded : Request}
    (hn : HeaderName.ofText? d.headerName = some n)
    (h : (Integrity.addHeader d (strip c r)).result = .ok guarded)
    (hpayload : t.payload = r.payload) (hauth : t.headers.values .authorization = [])
    (hkept : n ≠ .authorization → guarded.headers.contains n = true →
      t.headers.contains n = true) :
    ∃ t', (Integrity.addHeader d t).result = .ok t' ∧ t.SameBut [.authorization] t' ∧
      t'.headers.values .authorization = guarded.headers.values .authorization := by
  have hstrip := values_strip_authorization c r
  have hhas : ∀ u : Request, u.hasHeader d.headerName = u.headers.contains n := fun u =>
    Integrity.hasHeader_of_ofText? hn
  have hfound : t.headers.contains n = true → (Integrity.addHeader d t).result = .ok t := by
    intro ht
    rw [Integrity.addHeader_result, hhas, if_pos ht]
  rcases Integrity.addHeader_eq_ok h with ⟨hthere, rfl⟩ | ⟨m, value, v, hm, -, hvalue, hv, rfl⟩
  · rw [hhas] at hthere
    have hne : n ≠ .authorization := by
      rintro rfl
      exact (Http.Headers.contains_iff _ _).1 hthere hstrip
    exact ⟨t, hfound (hkept hne hthere), .refl _ _, hauth.trans hstrip.symm⟩
  · obtain rfl : n = m := Option.some.inj (hn.symm.trans hm)
    by_cases hne : n = .authorization
    · subst hne
      have hmissing : t.headers.contains .authorization = false := by
        rw [Bool.eq_false_iff, ne_eq, Http.Headers.contains_iff, hauth]
        simp
      have hagain : Integrity.headerChecksum d t.payload = .ok value := by
        rw [hpayload]
        exact hvalue
      refine ⟨_, Integrity.addHeader_of_missing hn hmissing hagain hv, .insert_right t _ v, ?_⟩
      rw [Http.Headers.values_insert_self, Http.Headers.values_insert_self]
    · refine ⟨t, hfound (hkept hne (Http.Headers.contains_insert_self _ _ _)), .refl _ _, ?_⟩
      rw [hauth, Http.Headers.values_insert_of_ne _ _ _ _ hne, hstrip]

lemma announceTrailer_again {d : Checksum.Directive} {n : HeaderName} {guarded : Request}
    (hn : HeaderName.ofText? d.headerName = some n)
    (h : (Integrity.announceTrailer d (strip c r)).result = .ok guarded)
    (htrailer : t.headers.values .trailer = guarded.headers.values .trailer) :
    (Integrity.announceTrailer d t).result = .ok t := by
  have hannounced := Integrity.isAnnounced_of_announceTrailer hn h
  rw [← htrailer] at hannounced
  rw [Integrity.announceTrailer_result, hannounced, Outcome.ok_bind, if_pos rfl]

lemma integrate_again
    (hname : ∀ d ∈ directive, ∃ n, HeaderName.ofText? d.headerName = some n ∧ n ≠ .securityToken)
    {guarded : Request} (h : (integrate directive (strip c r)).result = .ok guarded)
    (hpayload : t.payload = r.payload) (hauth : t.headers.values .authorization = [])
    (hkept : ∀ n, n ≠ .authorization → n ≠ .securityToken →
      guarded.headers.contains n = true → t.headers.contains n = true)
    (htrailer : t.headers.values .trailer = guarded.headers.values .trailer) :
    ∃ t', (integrate directive t).result = .ok t' ∧ t.SameBut [.authorization] t' ∧
      t'.headers.values .authorization = guarded.headers.values .authorization := by
  have hguard := integrate_sameBut h
  have hstrip := values_strip_authorization c r
  cases directive with
  | none =>
    cases h
    exact ⟨t, rfl, .refl _ _, hauth.trans hstrip.symm⟩
  | some d =>
    obtain ⟨n, hn, htoken⟩ := hname d rfl
    simp only [integrate, Integrity.integrate] at h ⊢
    cases hplace : d.placement with
    | header =>
      rw [hplace] at h
      exact addHeader_again hn h hpayload hauth fun hne => hkept n hne htoken
    | trailer =>
      rw [hplace] at h
      have hlist : HeaderName.authorization ∉ guardNames (some d) := by
        simp only [guardNames, hplace]
        decide
      refine ⟨t, announceTrailer_again hn h htrailer, .refl _ _, ?_⟩
      rw [hauth, hguard.values _ hlist, hstrip]

lemma contains_ground {guarded hashed ground : Request} {hasTrailer : Bool}
    (hhashed : Integrity.resolveHash c hasTrailer guarded = .ok (hashed, hash))
    (hhosted : addHost hashed = .ok ground) {n : HeaderName}
    (hn : guarded.headers.contains n = true) : ground.headers.contains n = true := by
  obtain ⟨hhash, -, hkept⟩ := Integrity.resolveHash_spec hhashed
  obtain ⟨hhost, hcontains⟩ := addHost_spec hhosted
  by_cases hne : n = .host
  · exact hne ▸ hcontains
  rw [Http.Headers.contains_congr (hhost.values n (by simpa using hne))]
  by_cases hne' : n = .contentHash
  · subst hne'
    exact hkept hn
  · rwa [Http.Headers.contains_congr (hhash.values n (by simpa using hne'))]

/-- **The groundwork is laid once**: of a request that differs from its result in authorization,
token and date only, and has a date, the groundwork is that result again, but for token and date.
-/
lemma groundwork_again
    (hname : ∀ d ∈ directive, ∃ n, HeaderName.ofText? d.headerName = some n ∧ n ≠ .securityToken)
    {ground : Request} (h : groundwork c directive r = .ok (ground, hash))
    (hsame : ground.SameBut [.authorization, .securityToken, .date] s)
    (hdate : s.headers.contains .date = true) :
    ∃ ground', groundwork c directive s = .ok (ground', hash) ∧
      ground.SameBut [.securityToken, .date] ground' ∧
      ground'.headers.values .securityToken = (strip c s).headers.values .securityToken := by
  obtain ⟨guarded, hashed, hguarded, hhashed, hhosted⟩ := groundwork_eq_ok.1 h
  obtain ⟨hground, hsettled, hhost⟩ := groundwork_spec h
  have hhash := (Integrity.resolveHash_spec hhashed).1
  have hhosts := (addHost_spec hhosted).1
  have hstrip := strip_sameBut c s
  have hstripped : ground.SameBut [.authorization, .securityToken, .date] (strip c s) :=
    hsame.trans (hstrip.mono (by simp))
  -- What the directive asked for is still there.
  have hkept : ∀ n, n ≠ .authorization → n ≠ .securityToken →
      guarded.headers.contains n = true → (strip c s).headers.contains n = true := by
    intro n hauth htoken hn
    by_cases hne : n = .date
    · subst hne
      rwa [Http.Headers.contains_congr (hstrip.values .date (by decide))]
    · rw [Http.Headers.contains_congr (hstripped.values n (by simp [hauth, htoken, hne]))]
      exact contains_ground hhashed hhosted hn
  have htrailer : (strip c s).headers.values .trailer = guarded.headers.values .trailer := by
    rw [hstripped.values _ (by decide), hhosts.values _ (by decide), hhash.values _ (by decide)]
  obtain ⟨t, hintegrate, hauthed, hauth⟩ := integrate_again hname hguarded
    (hstripped.payload.trans hground.payload) (values_strip_authorization c s) hkept htrailer
  have hsame' : ground.SameBut [.authorization, .securityToken, .date] t :=
    hstripped.trans (hauthed.mono (by simp))
  have hauth' : t.headers.values .authorization = ground.headers.values .authorization := by
    rw [hauth, hhosts.values _ (by decide), hhash.values _ (by decide)]
  -- Hash and host are found in place.
  have hresolve := (hsettled.congr (hsame'.values .contentHash (by decide))
    hsame'.payload).resolveHash_eq
  have hhost' : t.headers.contains .host = true := by
    rwa [Http.Headers.contains_congr (hsame'.values .host (by decide))]
  refine ⟨t, ?_, hsame'.tighten hauth', hauthed.values _ (by decide)⟩
  rw [groundwork, hintegrate, Outcome.ok_bind, hresolve, Outcome.ok_bind]
  simp only [addHost_of_contains hhost', Outcome.ok_bind]
  rfl

/-! ### Alike from there on -/

lemma putHidden_alike {n : HeaderName} {loose : List HeaderName}
    (h : Request.SameBut (n :: loose) r s) (value : String) :
    Alike (Request.SameBut loose) (putHidden r n value) (putHidden s n value) :=
  alike_putHidden h.insert value

lemma addDated_alike (h : r.SameBut [.securityToken, .date] s)
    (htoken : (c.signSecurityToken = true ∧ credential.sessionToken.isSome = true) ∨
      s.headers.values .securityToken = r.headers.values .securityToken) :
    Alike (Request.SameBut []) (addDated c credential now r) (addDated c credential now s) := by
  have hloose : r.SameBut [.date, .securityToken] s := h.mono (by simp)
  rcases htoken with ⟨hmode, htoken⟩ | htoken
  · obtain ⟨token, htoken⟩ := Option.isSome_iff_exists.1 htoken
    unfold addDated
    rw [hmode, htoken]
    exact (hloose.putText_alike _).bind fun _ _ hsame => putHidden_alike hsame token
  · have hagree : Alike (Request.SameBut []) (r.putText .date now.stamp)
        (s.putText .date now.stamp) := (h.tighten htoken).putText_alike _
    unfold addDated
    refine hagree.bind fun u v hsame => ?_
    split
    · exact putHidden_alike (hsame.mono (by simp)) _
    · exact .ok hsame

lemma attachToken_alike {kept kept' : Option HeaderValue} (h : r.SameBut [] s)
    (htoken : credential.sessionToken.isSome = true ∨
      kept'.map HeaderValue.hide = kept.map HeaderValue.hide) :
    Alike (Request.SameBut []) (attachToken credential kept r)
      (attachToken credential kept' s) := by
  unfold attachToken
  cases hown : credential.sessionToken with
  | some token => exact putHidden_alike (h.mono (by simp)) token
  | none =>
    have hhide : kept'.map HeaderValue.hide = kept.map HeaderValue.hide := by
      simpa [hown] using htoken
    cases kept with
    | none =>
      cases kept' with
      | none => exact .ok h
      | some w => cases hhide
    | some v =>
      cases kept' with
      | none => cases hhide
      | some w =>
        simp only [Option.map_some, Option.some.injEq] at hhide
        simp only [hhide]
        exact .ok ((h.mono (by simp)).insert v.hide)

lemma attach_sameBut_alike {kept kept' : Option HeaderValue} (h : r.SameBut [] s)
    (htoken : credential.sessionToken.isSome = true ∨
      kept'.map HeaderValue.hide = kept.map HeaderValue.hide) (text : String) :
    Alike (Request.SameBut []) (attach c credential kept text r)
      (attach c credential kept' text s) := by
  have hloose : r.SameBut [.authorization] s := h.mono (by simp)
  unfold attach
  refine (putHidden_alike hloose text).bind fun u v hsame => ?_
  split
  · exact .ok hsame
  · exact attachToken_alike hsame htoken

/-- **Requests that say the same are signed alike.** -/
lemma closing_alike {scope : Scope} {kept kept' : Option HeaderValue} (h : r.SameBut [] s)
    (htoken : credential.sessionToken.isSome = true ∨
      kept'.map HeaderValue.hide = kept.map HeaderValue.hide) :
    Alike SameResult (closing c credential now scope kept r hash)
      (closing c credential now scope kept' s hash) := by
  have hvalues : ∀ n, Canonical.signedValues c r n = Canonical.signedValues c s n := by
    intro n
    rw [Canonical.signedValues, Canonical.signedValues, h.values n (by simp)]
  have hformed : CanonicalRequest.ofRequest c r hash = CanonicalRequest.ofRequest c s hash :=
    CanonicalRequest.ofRequest_congr rfl rfl h.method.symm h.path.symm h.query.symm hvalues
  unfold closing
  refine .bind_of_eq hformed fun canonical => ?_
  exact (attach_sameBut_alike h htoken _).bind fun u v hsame => .ok ⟨hsame, rfl⟩

/-! ### One round, and any number of them -/

lemma Stages.ground_sameBut {signed : Request} {out : SigningOutput}
    (st : Stages c r earlier directive now signed out) :
    st.ground.SameBut [.authorization, .securityToken, .date] signed ∧
      signed.headers.contains .date = true := by
  have hdated := (addDated_spec st.dated).1
  have hattached := (attach_spec st.attached).1
  obtain ⟨date, -, hdate⟩ := st.exists_values_date
  refine ⟨(hdated.mono ?_).trans (hattached.mono ?_), ?_⟩
  · split <;> simp
  · split <;> simp
  · rw [Http.Headers.contains_iff, hdate]
    simp

lemma Stages.earlierToken_eq {signed : Request} {out : SigningOutput}
    (st : Stages c r earlier directive now signed out)
    (htoken : HeaderName.securityToken ∉ guardNames directive)
    (hnone : earlier.sessionToken = none) :
    (earlierToken c signed).map HeaderValue.hide = (earlierToken c r).map HeaderValue.hide := by
  cases hmode : c.signSecurityToken with
  | true => simp [earlierToken, hmode]
  | false =>
    simp only [earlierToken, hmode, Bool.false_eq_true, if_false]
    rw [Http.Headers.get?, st.values_securityToken_of_unsigned hmode hnone]
    cases hget : r.headers.get? .securityToken with
    | some v => rfl
    | none =>
      rw [Option.elim, st.values_ground htoken (by decide) (by decide), values_strip_securityToken,
        hmode]
      rfl

/-- **One round is forgotten** by the next, if that has a token or the first had none. -/
lemma calculate_again
    (hname : ∀ d ∈ directive, ∃ n, HeaderName.ofText? d.headerName = some n ∧ n ≠ .securityToken)
    {before : Instant} {out : SigningOutput}
    (h : (calculate c r earlier directive before).result = .ok (s, out))
    (htoken : credential.sessionToken.isSome = true ∨ earlier.sessionToken = none) :
    Alike SameResult (calculate c r credential directive now).result
      (calculate c s credential directive now).result := by
  obtain ⟨st⟩ := calculate_eq_ok.1 h
  have hguard : HeaderName.securityToken ∉ guardNames directive := by
    refine not_mem_guardNames (by decide) fun d hd _ htoken => ?_
    obtain ⟨n, hn, hne⟩ := hname d hd
    exact hne (Option.some.inj (hn.symm.trans htoken))
  obtain ⟨hsame, hdate⟩ := st.ground_sameBut
  obtain ⟨ground', hground', hsame', htoken'⟩ := groundwork_again hname st.grounded hsame hdate
  have hdated : (c.signSecurityToken = true ∧ credential.sessionToken.isSome = true) ∨
      ground'.headers.values .securityToken = st.ground.headers.values .securityToken := by
    rw [htoken', values_strip_securityToken]
    cases hmode : c.signSecurityToken with
    | true =>
      rcases htoken with hsome | hnone
      · exact .inl ⟨rfl, hsome⟩
      · exact .inr (st.values_securityToken_of_signed hmode hnone)
    | false =>
      refine .inr ?_
      rw [st.values_ground hguard (by decide) (by decide), values_strip_securityToken, hmode]
      rfl
  have hkept : credential.sessionToken.isSome = true ∨
      (earlierToken c s).map HeaderValue.hide = (earlierToken c r).map HeaderValue.hide :=
    htoken.imp_right fun hnone => st.earlierToken_eq hguard hnone
  rw [calculate_result, calculate_result, prepare_result, prepare_result, st.grounded, hground',
    Outcome.ok_bind, Outcome.ok_bind]
  refine .bind_of_eq rfl fun scope => ?_
  have hprepared : Alike (fun p q => p.1.SameBut [] q.1 ∧ p.2 = q.2)
      (addDated c credential now st.ground >>= fun u => .ok (u, st.hash))
      (addDated c credential now ground' >>= fun u => .ok (u, st.hash)) :=
    (addDated_alike hsame' hdated).bind fun _ _ hu => .ok ⟨hu, rfl⟩
  refine hprepared.bind fun p q hpq => ?_
  rw [← hpq.2]
  exact closing_alike hpq.1 hkept

/-- Signs a request again and again, as of one instant after the other. -/
def rounds (c : Config) (directive : Option Checksum.Directive) :
    List (Credential × Instant) → Request → Except Error Request
  | [], r => .ok r
  | (credential, now) :: rest, r => do
    let (signed, _) ← (calculate c r credential directive now).result
    rounds c directive rest signed

lemma SameResult.trans {x y z : Request × SigningOutput} (h : SameResult x y)
    (h' : SameResult y z) : SameResult x z := ⟨h.1.trans h'.1, h.2.trans h'.2⟩

/-- **Signing forgets the rounds before it.** However often a request was signed, by others and
at other times, signing it comes to what it would have come to at first: the same failure, or the
same output and the same request. Only a round without a token must not follow one that has one.
-/
theorem calculate_after_rounds
    (hname : ∀ d ∈ directive, ∃ n, HeaderName.ofText? d.headerName = some n ∧ n ≠ .securityToken)
    {earlier : List (Credential × Instant)} (h : rounds c directive earlier r = .ok s)
    (htoken : credential.sessionToken.isSome = true ∨
      ∀ round ∈ earlier, round.1.sessionToken = none) :
    Alike SameResult (calculate c r credential directive now).result
      (calculate c s credential directive now).result := by
  induction earlier generalizing r with
  | nil =>
    cases h
    exact .of_eq (fun x => ⟨.refl _ _, rfl⟩) rfl
  | cons round rest ih =>
    obtain ⟨⟨signed, out⟩, hround, hrest⟩ := Outcome.bind_eq_ok.1 h
    have hfirst : Alike SameResult (calculate c r credential directive now).result
        (calculate c signed credential directive now).result :=
      calculate_again hname hround (htoken.imp_right fun hnone => hnone round List.mem_cons_self)
    have hlater := ih hrest (htoken.imp_right fun hnone round hmem =>
      hnone round (List.mem_cons_of_mem _ hmem))
    exact hfirst.trans (S := SameResult) (fun _ _ _ => SameResult.trans) hlater

/-- A streamed upload with a trailer, signed with a temporary credential and then with another. -/
theorem calculate_after_round_of_streamed :
    let c := Config.forService "demo" "us-east-1"
    let host : HeaderValue := ⟨utf8 "h", false, by decide⟩
    let r := Request.ofHead ⟨.get, .origin ⟨"/a", none⟩, ⟨[(.host, host)]⟩⟩ (.streaming none)
    let first := (Credential.ofKeys "id" "key").withSessionToken "token"
    let second := (Credential.ofKeys "other" "key").withSessionToken "token"
    let directive := some (Checksum.Directive.of .crc32 .trailer)
    let before : Instant := ⟨⟨2015, 8, 30, by decide, by decide⟩, 12, 36, 0, 0, by decide,
      by decide, by decide, by decide⟩
    let now := { before with hour := 13, hour_lt := by decide }
    ∃ s, rounds c directive [(first, before)] r = .ok s ∧
      Alike SameResult (calculate c r second directive now).result
        (calculate c s second directive now).result := by
  intro c host r first second directive before now
  let trailer : HeaderValue := ⟨utf8 "x-amz-checksum-crc32", false, by decide⟩
  let date : HeaderValue := ⟨utf8 "20150830T123600Z", false, by decide⟩
  have opened : opening c first before = .ok ⟨"20150830", "us-east-1", "demo"⟩ := by cbv
  have grounded : groundwork c directive r =
      .ok ({ r with headers := r.headers.append .trailer trailer },
        Integrity.trailingPayload) := by cbv
  have dated : addDated c first before { r with headers := r.headers.append .trailer trailer } =
      .ok { r with headers := (r.headers.append .trailer trailer).append .date date } := by cbv
  obtain ⟨canonical, formed⟩ : ∃ a, CanonicalRequest.ofRequest c
      { r with headers := (r.headers.append .trailer trailer).append .date date }
      Integrity.trailingPayload = .ok a :=
    CanonicalRequest.exists_ofRequest (p := "/a") (by cbv) (by decide)
  obtain ⟨signed, out, h⟩ := exists_calculate opened grounded dated formed (by decide) (by decide)
    (by decide) (by decide)
  have hrounds : rounds c directive [(first, before)] r = .ok signed := by
    rw [rounds, h]
    rfl
  have hname : ∀ d ∈ directive, ∃ n, HeaderName.ofText? d.headerName = some n ∧
      n ≠ .securityToken := by
    intro d hd
    obtain rfl := Option.some.inj hd
    exact ⟨⟨"x-amz-checksum-crc32", by decide⟩, by decide, by decide⟩
  exact ⟨signed, hrounds, calculate_after_rounds hname hrounds (.inl rfl)⟩

end SigV4.Signer
