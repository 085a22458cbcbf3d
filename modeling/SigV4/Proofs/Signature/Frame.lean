import Mathlib
import SigV4.Proofs.Http.Authority
import SigV4.Proofs.Signature.Stages

/-!
What a signature leaves alone.

Signing writes five headers and the one that guards the payload, and nothing else of the request.
Authorization and date are new in any case. The host is the one the request came with, or else it
is made of the authority, without its user.
-/

namespace SigV4.Signer

open Http (Authority HeaderName HeaderValue)

variable {c : Config} {r s : Request} {credential : Credential} {now : Instant} {hash : String}
  {directive : Option Checksum.Directive} {signed : Request} {out : SigningOutput}

/-! ### The host of an authority -/

/-- The text names the host of an authority, with its port if that is a number of sixteen bits,
and nothing of the user. -/
structure IsHostOf (a : Authority) (text : String) : Prop where
  eq_of_none : a.port? = none → text = a.host
  eq_of_some : ∀ p, a.port? = some p → p < 65536 ∧ text = a.host ++ ":" ++ toString p
  no_mark : '@' ∉ text.toList
  no_user : ∀ user rest, '@' ∉ rest.toList → a.text = user ++ "@" ++ rest → text = hostText ⟨rest⟩

lemma isHostOf_hostText (a : Authority) : IsHostOf a (hostText a) where
  eq_of_none h := by rw [hostText, h]
  eq_of_some p h := by
    obtain ⟨-, -, -, hp⟩ := Authority.port?_eq_some h
    exact ⟨hp, by rw [hostText, h]⟩
  no_mark := by
    have hport : ∀ p : Nat, '@' ∉ (toString p).toList := by
      intro p hmem
      rw [Nat.toString_eq_repr, Nat.repr, String.toList_ofList] at hmem
      exact absurd (Nat.isDigit_of_mem_toDigits (by decide) (by decide) hmem) (by decide)
    unfold hostText
    split
    · next p _ =>
      rw [String.toList_append, String.toList_append, List.mem_append, List.mem_append]
      rintro ((h | h) | h)
      · exact a.not_mem_host h
      · revert h; decide
      · exact hport p h
    · exact a.not_mem_host
  no_user user rest hrest ha := by
    obtain rfl : a = ⟨user ++ "@" ++ rest⟩ := congrArg Authority.mk ha
    rw [hostText, hostText, Authority.host_of_user user hrest, Authority.port?_of_user]

/-- The host that is sent: the one the request came with, or else one value made of the
authority. -/
inductive HostSent (r signed : Request) : Prop
  | kept (given : r.headers.values .host ≠ [])
      (sent : signed.headers.values .host = r.headers.values .host)
  | made {a : Authority} {v : HeaderValue} {text : String} (given : r.headers.values .host = [])
      (authority : r.authority = some a) (sent : signed.headers.values .host = [v])
      (octets : v.octets = utf8 text) (host : IsHostOf a text)

lemma hostSent_of_addHost (h : addHost r = .ok s) : HostSent r s := by
  rcases addHost_eq_ok h with ⟨hhost, rfl⟩ | ⟨a, v, hhost, hauthority, hv, rfl⟩
  · exact .kept ((Http.Headers.contains_iff _ _).1 hhost) rfl
  · have hnil := (Http.Headers.contains_eq_false_iff _ _).1 hhost
    exact .made hnil hauthority (Http.Headers.values_insert_self _ _ _)
      (HeaderValue.ofText?_eq_some hv).1 (isHostOf_hostText a)

lemma HostSent.congr {r' s' : Request} (h : HostSent r s)
    (hr : r'.headers.values .host = r.headers.values .host)
    (hauthority : r'.authority = r.authority)
    (hs : s'.headers.values .host = s.headers.values .host) : HostSent r' s' := by
  cases h with
  | kept given sent => exact .kept (hr ▸ given) (by rw [hs, hr, sent])
  | made given authority sent octets host =>
    exact .made (hr ▸ given) (hauthority ▸ authority) (hs ▸ sent) octets host

/-! ### The frame -/

namespace Stages

lemma hostSent (st : Stages c r credential directive now signed out)
    (hguard : HeaderName.host ∉ guardNames directive) : HostSent r signed := by
  obtain ⟨guarded, hashed, hguarded, hhashed, hhosted⟩ := groundwork_eq_ok.1 st.grounded
  have hbefore : r.SameBut ([.authorization, .securityToken, .contentHash] ++ guardNames directive)
      hashed :=
    ((strip_sameBut c r).mono (by simp)).trans
      (((integrate_sameBut hguarded).mono (List.subset_append_right _ _)).trans
        ((Integrity.resolveHash_spec hhashed).1.mono (by simp)))
  have hafter : signed.headers.values .host = st.ground.headers.values .host := by
    rw [st.values_signed (by decide) fun _ => by decide,
      st.values_prepared (by decide) fun _ => by decide]
  exact (hostSent_of_addHost hhosted).congr
    (hbefore.values .host (by simpa using ⟨by decide, by decide, by decide, hguard⟩)).symm
    hbefore.authority.symm hafter

/-- **What a signature touches**: five headers, and the one that guards the payload. -/
lemma sameBut (st : Stages c r credential directive now signed out) :
    r.SameBut ([.authorization, .date, .securityToken, .host, .contentHash] ++
      guardNames directive) signed := by
  have hstrip := strip_sameBut c r
  have hground := (groundwork_spec st.grounded).1
  have hdated := (addDated_spec st.dated).1
  have hattached := (attach_spec st.attached).1
  refine (hstrip.mono ?_).trans ((hground.mono ?_).trans ((hdated.mono ?_).trans
    (hattached.mono ?_)))
  · simp
  · intro n hn
    simp only [List.mem_append, List.mem_cons, List.not_mem_nil, or_false] at hn ⊢
    tauto
  · split <;> simp
  · split <;> simp

end Stages

/-- **The frame of a signature.** What is sent is the request that was given, but for the headers
that signing may touch. Among them there is one authorization, which is not to be shown, one date,
which is the time of signing, and, unless a checksum is asked for under that name, the host that was
given or else the one of the authority. -/
theorem frame_of_signed
    (h : (calculate c r credential directive now).result = .ok (signed, out)) :
    r.SameBut ([.authorization, .date, .securityToken, .host, .contentHash] ++
        guardNames directive) signed ∧
      (∃ v, signed.headers.values .authorization = [v] ∧ v.sensitive = true) ∧
      (∃ v, signed.headers.values .date = [v] ∧ v.octets = utf8 now.stamp ∧
        v.sensitive = false) ∧
      ((∀ d ∈ directive, d.placement = .header →
        HeaderName.ofText? d.headerName ≠ some .host) → HostSent r signed) := by
  obtain ⟨st⟩ := calculate_eq_ok.1 h
  obtain ⟨-, sent, -, hsent⟩ := attach_spec st.attached
  obtain ⟨date, hstamp, hdate⟩ := st.exists_values_date
  obtain ⟨hoctets, hshown⟩ := HeaderValue.ofText?_eq_some hstamp
  refine ⟨st.sameBut, ⟨sent.hide, hsent, rfl⟩, ⟨date, hdate, hoctets, hshown⟩, fun hguard => ?_⟩
  exact st.hostSent (not_mem_guardNames (by decide) hguard)

/-- An upload to a numbered host with a user and a port, which has two dates and two notes. -/
theorem frame_of_signed_of_uploaded :
    let c := Config.forService "s3" "us-east-1"
    let note : HeaderName := ⟨"x-note", by decide⟩
    let old : HeaderValue := ⟨utf8 "old", false, by decide⟩
    let new : HeaderValue := ⟨utf8 "new", true, by decide⟩
    let r := Request.ofHead ⟨.get, .absolute .https ⟨"u:80@[::1]:8443"⟩ ⟨"/a", some "b&a=1"⟩,
      ⟨[(note, old), (.date, old), (note, new), (.date, new)]⟩⟩ (.streaming (some 3))
    let credential := (Credential.ofKeys "id" "key").withSessionToken "token"
    let now : Instant := ⟨⟨2015, 8, 30, by decide, by decide⟩, 12, 36, 0, 0, by decide, by decide,
      by decide, by decide⟩
    ∃ signed out, (calculate c r credential none now).result = .ok (signed, out) ∧
      r.SameBut [.authorization, .date, .securityToken, .host, .contentHash] signed ∧
      (∃ v, signed.headers.values .authorization = [v] ∧ v.sensitive = true) ∧
      (∃ v, signed.headers.values .date = [v] ∧ v.octets = utf8 now.stamp ∧
        v.sensitive = false) ∧
      HostSent r signed ∧
      ∃ v, signed.headers.values .host = [v] ∧ v.octets = utf8 "[::1]:8443" := by
  intro c note old new r credential now
  let hash : HeaderValue := ⟨utf8 "UNSIGNED-PAYLOAD", false, by decide⟩
  let host : HeaderValue := ⟨utf8 "[::1]:8443", false, by decide⟩
  let hashed := r.headers.insert .contentHash hash
  let ground := hashed.insert .host host
  have opened : opening c credential now = .ok ⟨"20150830", "us-east-1", "s3"⟩ := by cbv
  have stripped : strip c r = r := by decide
  have resolved : Integrity.resolveHash c false r =
      .ok ({ r with headers := hashed }, Integrity.unsignedPayload) := by cbv
  have hosted : addHost { r with headers := hashed } = .ok { r with headers := ground } := by
    rw [addHost, if_neg (by decide)]
    exact Request.putText_eq_ok.2 ⟨host, by decide, rfl⟩
  have grounded : groundwork c none r =
      .ok ({ r with headers := ground }, Integrity.unsignedPayload) :=
    groundwork_eq_ok.2 ⟨r, _, congrArg Except.ok stripped, resolved, hosted⟩
  have hpath : Canonical.path c r = .ok "/a" := by cbv
  obtain ⟨signed, out, h⟩ := exists_calculate_of_groundwork opened grounded hpath (by decide)
    (by decide) (by decide) (by decide) (by decide)
  obtain ⟨hrest, hauth, hdate, hhost⟩ := frame_of_signed h
  have hsent : ∃ v, signed.headers.values .host = [v] ∧ v.octets = utf8 "[::1]:8443" := by
    cases hhost (by decide) with
    | kept given => exact absurd (by decide) given
    | made _ authority sent octets host =>
      cases authority
      obtain ⟨-, rfl⟩ := host.eq_of_some 8443 (by decide)
      exact ⟨_, sent, octets.trans (by decide)⟩
  exact ⟨signed, out, h, hrest, hauth, hdate, hhost (by decide), hsent⟩

end SigV4.Signer
