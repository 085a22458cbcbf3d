import Mathlib
import SigV4.Proofs.Request.PutBack
import SigV4.Proofs.Signature.Stages
import SigV4.Signature.Head

/-!
What signing does to a head.

Whatever signs the request, the head is replaced as a whole at the end or not at all. The
signer of this library only changes headers. So the target that is sent is the one that was
given, completed where it has no path, and the head that is sent is read as the signed request.
-/

namespace SigV4

open Http (Head Headers HeaderName HeaderValue Uri)

namespace HeadSigning

variable {α β : Type}

/-- What a computation on a head comes to, and the head it leaves, without its records. -/
def outcome (x : HeadSigning α) (head : Head) : Except Error α × Head := (x.run.run head).value

lemma outcome_bind (x : HeadSigning α) (f : α → HeadSigning β) (head : Head) :
    (x >>= f).outcome head = match x.outcome head with
      | (.ok a, head') => (f a).outcome head'
      | (.error e, head') => (.error e, head') := by
  simp only [outcome, ExceptT.run_bind, StateT.run_bind, Logged.value_bind]
  rcases (x.run.run head).value with ⟨e | a, head'⟩
  · rfl
  · rfl

@[simp] lemma outcome_get (head : Head) :
    (get : HeadSigning Head).outcome head = (.ok head, head) := rfl

@[simp] lemma outcome_throw (e : Error) (head : Head) :
    (throw e : HeadSigning α).outcome head = (.error e, head) := rfl

@[simp] lemma outcome_lift (x : Signing α) (head : Head) :
    (HeadSigner.lift x).outcome head = (x.result, head) := rfl

@[simp] lemma outcome_onHead (x : ExceptT Error (StateM Head) α) (head : Head) :
    (HeadSigner.onHead x).outcome head = x.run head := rfl

end HeadSigning

namespace HeadSigner

variable {ι : Type} {s : HeadSigner ι} {payload : Payload} {directive : Option Checksum.Directive}
  {head head' : Head} {signed : Request} {e : Error}

/-- The request that the signer makes of a head. -/
def signedRequest (s : HeadSigner ι) (payload : Payload) (directive : Option Checksum.Directive)
    (head : Head) : Except Error Request := do
  let identity ← s.resolve.result
  if s.isUsable identity then (s.sign (Request.ofHead head payload) identity directive).result
  else .error .identityUnusable

/-- The head that is sent in place of a head. -/
def sentHead (s : HeadSigner ι) (payload : Payload) (directive : Option Checksum.Directive)
    (head : Head) : Except Error Head := do
  (← s.signedRequest payload directive head).putBack head

/-- **A head is signed as a whole or not at all.** -/
lemma outcome_run (s : HeadSigner ι) (payload : Payload) (directive : Option Checksum.Directive)
    (head : Head) :
    (s.run payload directive).outcome head =
      Outcome.commit (s.sentHead payload directive head) head := by
  rw [run, HeadSigning.outcome_bind, HeadSigning.outcome_lift, sentHead, signedRequest]
  cases hresolve : s.resolve.result with
  | error e => rfl
  | ok identity =>
    rw [Outcome.ok_bind]
    cases husable : s.isUsable identity with
    | false =>
      simp only [husable, Bool.not_false, if_true, HeadSigning.outcome_bind,
        HeadSigning.outcome_throw]
      rfl
    | true =>
      simp only [husable, Bool.not_true, Bool.false_eq_true, if_false, if_true,
        HeadSigning.outcome_bind, HeadSigning.outcome_get, HeadSigning.outcome_lift,
        HeadSigning.outcome_onHead, Request.apply_run]
      cases hsigned : (s.sign (Request.ofHead head payload) identity directive).result with
      | error e => rfl
      | ok signed => rfl

/-- Why a head is not signed: no identity, none that can be used, no signature for it, or a
signed request whose target cannot be written. -/
inductive Fails (s : HeadSigner ι) (payload : Payload) (directive : Option Checksum.Directive)
    (head : Head) : Error → Prop
  | unresolved {e : Error} (resolved : s.resolve.result = .error e) :
      Fails s payload directive head e
  | unusable {identity : ι} (resolved : s.resolve.result = .ok identity)
      (usable : s.isUsable identity = false) : Fails s payload directive head .identityUnusable
  | unsigned {identity : ι} {e : Error} (resolved : s.resolve.result = .ok identity)
      (usable : s.isUsable identity = true)
      (signs : (s.sign (Request.ofHead head payload) identity directive).result = .error e) :
      Fails s payload directive head e
  | unwritten {identity : ι} {signed : Request} {e : Error}
      (resolved : s.resolve.result = .ok identity) (usable : s.isUsable identity = true)
      (signs : (s.sign (Request.ofHead head payload) identity directive).result = .ok signed)
      (differs : signed.targetDiffers head = true) (written : signed.uri = .error e) :
      Fails s payload directive head e

lemma signedRequest_eq_ok : s.signedRequest payload directive head = .ok signed ↔
    ∃ identity, s.resolve.result = .ok identity ∧ s.isUsable identity = true ∧
      (s.sign (Request.ofHead head payload) identity directive).result = .ok signed := by
  rw [signedRequest, Outcome.bind_eq_ok]
  refine exists_congr fun identity => and_congr_right fun _ => ?_
  cases s.isUsable identity with
  | false => simp
  | true => simp

lemma signedRequest_eq_error : s.signedRequest payload directive head = .error e ↔
    s.resolve.result = .error e ∨ ∃ identity, s.resolve.result = .ok identity ∧
      (s.isUsable identity = false ∧ e = .identityUnusable ∨ s.isUsable identity = true ∧
        (s.sign (Request.ofHead head payload) identity directive).result = .error e) := by
  rw [signedRequest, Outcome.bind_eq_error]
  refine or_congr_right (exists_congr fun identity => and_congr_right fun _ => ?_)
  cases s.isUsable identity with
  | false => simp [eq_comm]
  | true => simp

lemma sentHead_eq_error :
    s.sentHead payload directive head = .error e ↔ s.Fails payload directive head e := by
  rw [sentHead, Outcome.bind_eq_error]
  simp only [signedRequest_eq_error, signedRequest_eq_ok, Request.putBack_eq_error]
  constructor
  · rintro ((resolved | ⟨identity, resolved, ⟨usable, rfl⟩ | ⟨usable, signs⟩⟩) |
      ⟨signed, ⟨identity, resolved, usable, signs⟩, differs, written⟩)
    · exact .unresolved resolved
    · exact .unusable resolved usable
    · exact .unsigned resolved usable signs
    · exact .unwritten resolved usable signs differs written
  · rintro (resolved | ⟨resolved, usable⟩ | ⟨resolved, usable, signs⟩ |
      ⟨resolved, usable, signs, differs, written⟩)
    · exact .inl (.inl resolved)
    · exact .inl (.inr ⟨_, resolved, .inl ⟨usable, rfl⟩⟩)
    · exact .inl (.inr ⟨_, resolved, .inr ⟨usable, signs⟩⟩)
    · exact .inr ⟨_, ⟨_, resolved, usable, signs⟩, differs, written⟩

/-- **A failure leaves the head as it was**, whatever signs the request and wherever the failure
comes from: method, target and headers are those on entry. -/
theorem outcome_eq_error_iff (s : HeadSigner ι) (payload : Payload)
    (directive : Option Checksum.Directive) (head head' : Head) (e : Error) :
    (s.run payload directive).outcome head = (.error e, head') ↔
      head' = head ∧ s.Fails payload directive head e := by
  rw [outcome_run, Outcome.commit_eq_error, sentHead_eq_error]

/-- A signer that leaves no path that can be written: its headers are not put in either. -/
example :
    let relative : HeadSigner Unit := ⟨pure (), fun _ => true, fun r _ _ =>
      pure { r with path := "x", headers := r.headers.erase .host }⟩
    let host : HeaderValue := ⟨utf8 "h", false, by decide⟩
    let head : Head := ⟨.get, .origin ⟨"/a", none⟩, ⟨[(.host, host)]⟩⟩
    (relative.run .unsigned none).outcome head = (.error (.uriMalformed .noSlash), head) := by
  cbv

end HeadSigner

/-! ### The signer of this library -/

namespace HeadSigner

variable {resolve : Signing Identity} {c : Config} {wall now : Instant} {payload : Payload}
  {directive : Option Checksum.Directive} {head head' : Head} {identity : Identity}

/-- The signer of this library with any source of identities. -/
def ofSource (resolve : Signing Identity) (c : Config) (wall now : Instant) : HeadSigner Identity :=
  ⟨resolve, Identity.isUsable wall, Signer.sign c now⟩

lemma standard_eq_ofSource (provider : Provider) (c : Config) (wall now : Instant) :
    standard provider c wall now = ofSource provider.resolve c wall now := rfl

/-- **What is sent**: the method that was given, the completed target, and the headers of the
signed request. -/
lemma outcome_ofSource_eq_ok (resolved : resolve.result = .ok identity) :
    ((ofSource resolve c wall now).run payload directive).outcome head = (.ok (), head') ↔
      identity.isUsable wall = true ∧ ∃ signed,
        (Signer.sign c now (Request.ofHead head payload) identity directive).result =
          .ok signed ∧ head' = ⟨head.method, head.uri.completed, signed.headers⟩ := by
  have hput {signed : Request}
      (signs : (Signer.sign c now (Request.ofHead head payload) identity directive).result =
        .ok signed) :
      signed.putBack head = .ok ⟨head.method, head.uri.completed, signed.headers⟩ := by
    rw [Signer.sign_rest signs]
    exact Request.putBack_ofHead head payload signed.headers
  rw [outcome_run, Outcome.commit_eq_ok, sentHead, Outcome.bind_eq_ok]
  simp only [signedRequest_eq_ok]
  constructor
  · rintro ⟨signed, ⟨identity', resolved', usable, signs⟩, hsent⟩
    obtain rfl : identity = identity' := Except.ok.inj (resolved.symm.trans resolved')
    exact ⟨usable, signed, signs, Except.ok.inj (hsent.symm.trans (hput signs))⟩
  · rintro ⟨usable, signed, signs, rfl⟩
    exact ⟨signed, ⟨identity, resolved, usable, signs⟩, hput signs⟩

/-- **An anonymous head is sent as it was given**, whatever the configuration, except that a
slash is written out where its target has no path. Those are the bare authority, which becomes
an absolute target, and the target without any text, which is never read. -/
theorem outcome_of_anonymous (resolved : resolve.result = .ok .anonymous) (c : Config)
    (wall now : Instant) (payload : Payload) (directive : Option Checksum.Directive)
    (head : Head) :
    ((ofSource resolve c wall now).run payload directive).outcome head =
        (.ok (), { head with uri := head.uri.completed }) ∧
      ((∀ a, head.uri ≠ .authority a) → head.uri.text ≠ "" → head.uri.completed = head.uri) :=
  ⟨(outcome_ofSource_eq_ok resolved).2 ⟨rfl, _, rfl, rfl⟩, Uri.completed_eq_self⟩

/-- An empty environment and configuration, a target without a slash, and a query that is not
written the way this library would. -/
theorem outcome_of_empty_environment :
    let provider := Provider.environment (Environment.ofList [])
    let c := Config.forService "" ""
    let now : Instant := ⟨⟨2015, 8, 30, by decide, by decide⟩, 12, 36, 0, 0, by decide, by decide,
      by decide, by decide⟩
    let head : Head :=
      ⟨.get, .absolute .http ⟨"h"⟩ ⟨"", some "x=%7e&&k=%FF"⟩, Headers.empty⟩
    (liftM provider.resolve : Signing Identity).result = .ok .anonymous ∧
      ((standard provider c now now).run .unsigned none).outcome head = (.ok (), head) := by
  intro provider c now head
  have resolved : (liftM provider.resolve : Signing Identity).result = .ok .anonymous := rfl
  obtain ⟨hsent, hkept⟩ := outcome_of_anonymous resolved c now now .unsigned none head
  rw [hkept (fun a h => by cases h) (by decide), ← standard_eq_ofSource] at hsent
  exact ⟨resolved, hsent⟩

/-- **A bare authority is not sent as it was given**, though nothing was signed. -/
theorem text_ne_of_anonymous_authority :
    let now : Instant := ⟨⟨2015, 8, 30, by decide, by decide⟩, 12, 36, 0, 0, by decide, by decide,
      by decide, by decide⟩
    let head : Head := ⟨.get, .authority ⟨"h:443"⟩, Headers.empty⟩
    let sent : Head := ⟨.get, .absolute .http ⟨"h:443"⟩ ⟨"/", none⟩, Headers.empty⟩
    ((ofSource (pure .anonymous) (Config.forService "demo" "us-east-1") now now).run
        .unsigned none).outcome head = (.ok (), sent) ∧
      sent.uri.text = "http://h:443/" ∧ sent.uri.text ≠ head.uri.text := by
  intro now head sent
  exact ⟨by cbv, by decide, by decide⟩

lemma outcome_of_calculate (resolve : Signing Identity) (wall : Instant) {credential : Credential}
    {signed : Request} (resolved : resolve.result = .ok (.keyed credential))
    (usable : (Identity.keyed credential).isUsable wall = true)
    (h : ∃ out, (Signer.calculate c (Request.ofHead head payload) credential directive now).result =
      .ok (signed, out)) :
    ((ofSource resolve c wall now).run payload directive).outcome head =
      (.ok (), ⟨head.method, head.uri.completed, signed.headers⟩) :=
  (outcome_ofSource_eq_ok resolved).2 ⟨usable, signed, Signer.sign_keyed_eq_ok.2 h, rfl⟩

/-- **Nothing is lost on the way through a head.** The head that is sent is read as the signed
request. The text of its target is the one that was given, unless that is a bare authority or has
no text at all; no target without text is ever read. -/
theorem ofHead_sent {credential : Credential}
    (resolved : resolve.result = .ok (.keyed credential))
    (sent : ((ofSource resolve c wall now).run payload directive).outcome head = (.ok (), head')) :
    (Signer.sign c now (Request.ofHead head payload) (.keyed credential) directive).result =
        .ok (Request.ofHead head' payload) ∧
      head'.uri = head.uri.completed ∧
      (head'.uri.text = head.uri.text ↔ head.uri.text ≠ "" ∧ ∀ a, head.uri ≠ .authority a) ∧
      ∀ bs, Uri.parse bs = .ok head.uri → (∀ a, head.uri ≠ .authority a) →
        head'.uri = head.uri := by
  obtain ⟨-, signed, signs, rfl⟩ := (outcome_ofSource_eq_ok resolved).1 sent
  refine ⟨?_, rfl, head.uri.text_completed_eq_iff, fun bs => Uri.completed_eq_self_of_parse⟩
  rw [signs, Request.ofHead_completed, ← Signer.sign_rest signs]

/-- A key pair, a target without a slash, and a query with an empty piece and escapes that
are not written the way this library would or form no character. -/
theorem ofHead_sent_of_unslashed :
    let c := Config.forService "demo" "us-east-1"
    let credential := Credential.ofKeys "id" "key"
    let now : Instant := ⟨⟨2015, 8, 30, by decide, by decide⟩, 12, 36, 0, 0, by decide, by decide,
      by decide, by decide⟩
    let head : Head :=
      ⟨.get, .absolute .http ⟨"h"⟩ ⟨"", some "x=%7e&&k=%FF"⟩, Headers.empty⟩
    ∃ head', ((ofSource (pure (.keyed credential)) c now now).run .unsigned none).outcome head =
        (.ok (), head') ∧
      (Signer.sign c now (Request.ofHead head .unsigned) (.keyed credential) none).result =
        .ok (Request.ofHead head' .unsigned) ∧
      Uri.parse (utf8 "http://h?x=%7e&&k=%FF") = .ok head.uri ∧ head'.uri = head.uri ∧
      head'.uri.text = "http://h/?x=%7e&&k=%FF" := by
  intro c credential now head
  let r := Request.ofHead head .unsigned
  let host : HeaderValue := ⟨utf8 "h", false, by decide⟩
  let date : HeaderValue := ⟨utf8 "20150830T123600Z", false, by decide⟩
  have opened : Signer.opening c credential now = .ok ⟨"20150830", "us-east-1", "demo"⟩ := by cbv
  have grounded : Signer.groundwork c none r =
      .ok ({ r with headers := r.headers.insert .host host }, Integrity.unsignedPayload) := by cbv
  have dated : Signer.addDated c credential now
      { r with headers := r.headers.insert .host host } =
      .ok { r with headers := (r.headers.insert .host host).insert .date date } := by cbv
  obtain ⟨canonical, formed⟩ : ∃ a, CanonicalRequest.ofRequest c
      { r with headers := (r.headers.insert .host host).insert .date date }
      Integrity.unsignedPayload = .ok a :=
    CanonicalRequest.exists_ofRequest (p := "/") (by cbv) (by decide)
  obtain ⟨signed, h⟩ := Signer.exists_calculate opened grounded dated formed (by decide) (by decide)
    (by decide) (by decide)
  have resolved : (pure (.keyed credential) : Signing Identity).result = .ok (.keyed credential) :=
    rfl
  have sent := outcome_of_calculate _ now resolved (by decide) h
  have parsed : Uri.parse (utf8 "http://h?x=%7e&&k=%FF") = .ok head.uri := by decide
  obtain ⟨hread, -, htext, hkept⟩ := ofHead_sent resolved sent
  have hauthority : ∀ a, head.uri ≠ .authority a := fun a h => by cases h
  exact ⟨_, sent, hread, parsed, hkept _ parsed hauthority, htext.2 ⟨by decide, hauthority⟩⟩

/-- **A target that is put together from nothing gets a slash**, though it has no authority. -/
theorem text_ne_of_signed_empty_target :
    let c := Config.forService "demo" "us-east-1"
    let credential := Credential.ofKeys "id" "key"
    let now : Instant := ⟨⟨2015, 8, 30, by decide, by decide⟩, 12, 36, 0, 0, by decide, by decide,
      by decide, by decide⟩
    let host : HeaderValue := ⟨utf8 "h", false, by decide⟩
    let head : Head := ⟨.get, .origin ⟨"", none⟩, ⟨[(.host, host)]⟩⟩
    Uri.ofParts none none none = .ok head.uri ∧ (∀ a, head.uri ≠ .authority a) ∧
      ∃ head', ((ofSource (pure (.keyed credential)) c now now).run .unsigned none).outcome head =
          (.ok (), head') ∧
        head.uri.text = "" ∧ head'.uri.text = "/" := by
  intro c credential now host head
  have opened : Signer.opening c credential now = .ok ⟨"20150830", "us-east-1", "demo"⟩ := by cbv
  obtain ⟨signed, h⟩ := Signer.exists_calculate_of_host (p := "/")
    (r := Request.ofHead head .unsigned) opened (by decide) (by decide) rfl (by cbv) (by decide)
    (by decide) (by decide) (by decide) (by decide)
  have sent := outcome_of_calculate (pure (.keyed credential)) now rfl (by decide) h
  have hslash : head.uri.completed.text = "/" := by decide
  have hauthority : ∀ a, head.uri ≠ .authority a := fun a h => by cases h
  exact ⟨rfl, hauthority, _, sent, by decide, hslash⟩

end HeadSigner

end SigV4
