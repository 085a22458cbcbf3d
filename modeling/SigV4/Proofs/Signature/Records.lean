import Mathlib
import SigV4.Proofs.Canonical.Lines
import SigV4.Proofs.Signature.Head

/-!
What the records tell of a credential.

Signing a request writes down the scope, what was done about a checksum, the canonical form and the
text to be signed; signing a head writes down its method and path besides. The secret key is in
none of them. A session token is in the canonical form only if it is signed, and then the records
tell all of it that folding keeps.
-/

namespace SigV4

open Http (Head HeaderName HeaderValue)

/-- Which of two tokens was signed with cannot be told from the canonical form. -/
def Config.Conceals (c : Config) (t u : String) : Prop :=
  c.signSecurityToken = true → c.isExcluded HeaderName.securityToken.text = false →
    Canonical.fold t = Canonical.fold u

lemma Signing.log_eq_nil {α β : Type} (x : Except Error α) {f : α → Signing β}
    (h : ∀ a, (f a).log = []) : ((liftM x : Signing α) >>= f).log = [] := by
  rw [Signing.log_bind, Signing.log_ofExcept, Signing.result_ofExcept, List.nil_append]
  cases x with
  | error e => rfl
  | ok a => exact h a

namespace Signer

variable {c : Config} {r s s₁ s₂ : Request} {credential k₁ k₂ : Credential} {now : Instant}
  {directive : Option Checksum.Directive} {out out₁ out₂ : SigningOutput} {t₁ t₂ : String}

/-! ### The records of a run -/

lemma prepare_log (c : Config) (r : Request) (credential : Credential)
    (directive : Option Checksum.Directive) (now : Instant) :
    (prepare c r credential directive now).log = (integrate directive (strip c r)).log := by
  rw [prepare, Signing.log_bind]
  cases (integrate directive (strip c r)).result with
  | error e => exact List.append_nil _
  | ok guarded =>
    have hrest : ∀ p : Request × String, ((liftM (addSigned c credential now p.1) : Signing Request)
        >>= fun s => pure (s, p.2)).log = [] := fun p => Signing.log_eq_nil _ fun _ => rfl
    exact (congrArg _ (Signing.log_eq_nil _ hrest)).trans (List.append_nil _)

/-- **What is written down while a signature is made.** -/
lemma Stages.log_eq (st : Stages c r credential directive now s out) :
    (calculate c r credential directive now).log =
      ⟨.debug, "calculated scope: " ++ st.scope.text⟩ :: (integrate directive (strip c r)).log ++
        [⟨.debug, "calculated canonical request: " ++ st.canonical.text⟩,
          ⟨.debug, "calculated string to sign: " ++
            stringToSign now st.scope st.canonical.text⟩] := by
  obtain ⟨hvalid, hkeys, hscope⟩ := opening_eq_ok st.opened
  have hprepared : (prepare c r credential directive now).result = .ok (st.prepared, st.hash) := by
    rw [prepare_result, st.grounded, Outcome.ok_bind, st.dated]
    rfl
  simp only [calculate, Signing.log_bind, Signing.result_ofExcept, Signing.log_ofExcept,
    Signing.result_ofLogged, Signing.log_ofLogged, log_debug, hvalid, hkeys, hscope, hprepared,
    st.formed, prepare_log, Bool.not_true, Bool.false_eq_true, if_false, List.nil_append,
    Signing.log_pure]
  -- Nothing is written down once the text to be signed is there.
  split <;> simp

lemma sign_keyed_log (c : Config) (now : Instant) (r : Request) (credential : Credential)
    (directive : Option Checksum.Directive) :
    (sign c now r (.keyed credential) directive).log =
      (calculate c r credential directive now).log := by
  rw [sign, Signing.log_bind]
  cases (calculate c r credential directive now).result with
  | error e => exact List.append_nil _
  | ok p => exact List.append_nil _

/-! ### Two credentials -/

namespace Stages

lemma log_eq_log_iff (st₁ : Stages c r k₁ directive now s₁ out₁)
    (st₂ : Stages c r k₂ directive now s₂ out₂) :
    (calculate c r k₁ directive now).log = (calculate c r k₂ directive now).log ↔
      st₁.canonical = st₂.canonical := by
  obtain ⟨hscope, -⟩ := st₁.ground_eq st₂
  rw [st₁.log_eq, st₂.log_eq, hscope]
  constructor
  · intro h
    have hrecord := (List.cons.inj (List.append_cancel_left h)).1
    have htext : st₁.canonical.text = st₂.canonical.text :=
      (String.append_right_inj _).1 (congrArg Log.Record.text hrecord)
    exact CanonicalRequest.eq_of_text_eq (CanonicalRequest.isLined_of_ofRequest st₁.formed)
      (CanonicalRequest.isLined_of_ofRequest st₂.formed) htext
  · intro h
    rw [h]

lemma prepared_sameBut (st₁ : Stages c r k₁ directive now s₁ out₁)
    (st₂ : Stages c r k₂ directive now s₂ out₂) :
    st₁.prepared.SameBut [.securityToken] st₂.prepared := by
  obtain ⟨-, hground, -⟩ := st₁.ground_eq st₂
  have hdated := st₁.dated
  rw [hground] at hdated
  exact addDated_sameBut_token (.refl _ _) hdated st₂.dated

lemma canonical_eq_of_folds (st₁ : Stages c r k₁ directive now s₁ out₁)
    (st₂ : Stages c r k₂ directive now s₂ out₂)
    (h : Canonical.signedFolds c st₁.prepared .securityToken =
      Canonical.signedFolds c st₂.prepared .securityToken) : st₁.canonical = st₂.canonical := by
  have hsame := st₁.prepared_sameBut st₂
  have hfolds : ∀ n, Canonical.signedFolds c st₁.prepared n =
      Canonical.signedFolds c st₂.prepared n := by
    intro n
    by_cases hn : n = .securityToken
    · rw [hn, h]
    · unfold Canonical.signedFolds Canonical.signedValues
      rw [hsame.values n (by simpa using hn)]
  have hformed := st₁.formed
  rw [(st₁.ground_eq st₂).2.2, CanonicalRequest.ofRequest_congr_folds rfl rfl hsame.method.symm
    hsame.path.symm (hsame.query ▸ .refl _) hfolds, st₂.formed] at hformed
  exact (Except.ok.inj hformed).symm

lemma lineOf_mem_canonical (st : Stages c r credential directive now s out) {v : HeaderValue}
    (hkept : c.isExcluded HeaderName.securityToken.text = false)
    (h : st.prepared.headers.values .securityToken = [v]) :
    (HeaderName.securityToken.text, Canonical.joined [v]) ∈ st.canonical.headers ∧
      v.isReadable = true := by
  have hsigned : HeaderName.securityToken ∈ Canonical.signedNames c st.prepared := by
    rw [Canonical.mem_signedNames, Canonical.signedValues, hkept, h]
    simp
  have hheaders := (CanonicalRequest.ofRequest_eq_ok st.formed).2.1
  have hline := Canonical.lineOf_mem_headers hheaders hsigned
  rw [Canonical.lineOf, h] at hline
  exact ⟨hline.1, hline.2 v (List.mem_singleton_self v)⟩

lemma fold_eq_of_canonical_eq (st₁ : Stages c r k₁ directive now s₁ out₁)
    (st₂ : Stages c r k₂ directive now s₂ out₂) {v₁ v₂ : HeaderValue}
    (hkept : c.isExcluded HeaderName.securityToken.text = false)
    (h₁ : st₁.prepared.headers.values .securityToken = [v₁])
    (h₂ : st₂.prepared.headers.values .securityToken = [v₂])
    (h : st₁.canonical = st₂.canonical) :
    Canonical.fold (asciiText v₁.octets) = Canonical.fold (asciiText v₂.octets) := by
  have hline := (st₁.lineOf_mem_canonical hkept h₁).1
  rw [h] at hline
  obtain ⟨n, -, hlines, -⟩ :=
    Canonical.mem_headers (CanonicalRequest.ofRequest_eq_ok st₂.formed).2.1 hline
  obtain ⟨hname, hvalue⟩ := Prod.mk.inj hlines
  obtain rfl := HeaderName.ext_text hname
  rw [h₂] at hvalue
  exact hvalue

/-- **What the canonical form tells of a token**: nothing, unless the token is signed, and then all
that folding keeps. -/
lemma canonical_eq_iff (st₁ : Stages c r k₁ directive now s₁ out₁)
    (st₂ : Stages c r k₂ directive now s₂ out₂) (h₁ : k₁.sessionToken = some t₁)
    (h₂ : k₂.sessionToken = some t₂) : st₁.canonical = st₂.canonical ↔ c.Conceals t₁ t₂ := by
  unfold Config.Conceals
  cases hmode : c.signSecurityToken with
  | false =>
    simp only [Bool.false_eq_true, false_imp_iff, iff_true]
    refine st₁.canonical_eq_of_folds st₂ ?_
    unfold Canonical.signedFolds Canonical.signedValues
    rw [st₁.values_prepared (by decide) (by simp [hmode]),
      st₂.values_prepared (by decide) (by simp [hmode]), (st₁.ground_eq st₂).2.1]
  | true =>
    obtain ⟨v₁, hv₁, hp₁⟩ := st₁.exists_values_prepared_securityToken hmode h₁
    obtain ⟨v₂, hv₂, hp₂⟩ := st₂.exists_values_prepared_securityToken hmode h₂
    cases hkept : c.isExcluded HeaderName.securityToken.text with
    | true =>
      simp only [Bool.true_eq_false, false_imp_iff, imp_true_iff, iff_true]
      refine st₁.canonical_eq_of_folds st₂ ?_
      unfold Canonical.signedFolds Canonical.signedValues
      rw [hkept]
      rfl
    | false =>
      simp only [true_imp_iff]
      have hread₁ : v₁.isReadable = true := (st₁.lineOf_mem_canonical hkept hp₁).2
      have hread₂ : v₂.isReadable = true := (st₂.lineOf_mem_canonical hkept hp₂).2
      rw [← Http.asciiText_of_isReadable hv₁ hread₁, ← Http.asciiText_of_isReadable hv₂ hread₂]
      have htold := st₁.fold_eq_of_canonical_eq st₂ hkept hp₁ hp₂
      rw [HeaderValue.octets_hide, HeaderValue.octets_hide] at htold
      refine ⟨htold, fun h => ?_⟩
      rw [Canonical.fold_asciiText, Canonical.fold_asciiText] at h
      refine st₁.canonical_eq_of_folds st₂ ?_
      unfold Canonical.signedFolds Canonical.signedValues
      rw [hkept, hp₁, hp₂]
      exact congrArg (fun bs => [bs]) (asciiText_injective h)

end Stages

lemma sign_log_eq_log_iff (h₁ : k₁.sessionToken = some t₁) (h₂ : k₂.sessionToken = some t₂)
    (signs₁ : (sign c now r (.keyed k₁) directive).result = .ok s₁)
    (signs₂ : (sign c now r (.keyed k₂) directive).result = .ok s₂) :
    (sign c now r (.keyed k₁) directive).log = (sign c now r (.keyed k₂) directive).log ↔
      c.Conceals t₁ t₂ := by
  obtain ⟨out₁, hcalculate₁⟩ := sign_keyed_eq_ok.1 signs₁
  obtain ⟨out₂, hcalculate₂⟩ := sign_keyed_eq_ok.1 signs₂
  obtain ⟨st₁⟩ := calculate_eq_ok.1 hcalculate₁
  obtain ⟨st₂⟩ := calculate_eq_ok.1 hcalculate₂
  rw [sign_keyed_log, sign_keyed_log, st₁.log_eq_log_iff st₂, st₁.canonical_eq_iff st₂ h₁ h₂]

end Signer

/-! ### Heads -/

namespace HeadSigning

variable {α β : Type}

/-- The records of a computation on a head. -/
def log (x : HeadSigning α) (head : Head) : List Log.Record := (x.run.run head).log

lemma log_bind (x : HeadSigning α) (f : α → HeadSigning β) (head : Head) :
    (x >>= f).log head = x.log head ++ match x.outcome head with
      | (.ok a, head') => (f a).log head'
      | (.error _, _) => [] := by
  simp only [log, outcome, ExceptT.run_bind, StateT.run_bind, Logged.log_bind]
  rcases (x.run.run head).value with ⟨e | a, head'⟩
  · rfl
  · rfl

@[simp] lemma log_get (head : Head) : (get : HeadSigning Head).log head = [] := rfl

@[simp] lemma log_lift (x : Signing α) (head : Head) : (HeadSigner.lift x).log head = x.log :=
  List.append_nil _

@[simp] lemma log_onHead (x : ExceptT Error (StateM Head) α) (head : Head) :
    (HeadSigner.onHead x).log head = [] := rfl

end HeadSigning

namespace HeadSigner

/-- **What is written down while a head is signed.** -/
lemma run_log {ι : Type} {s : HeadSigner ι} {payload : Payload}
    {directive : Option Checksum.Directive} {head : Head} {identity : ι} {signed : Request}
    (resolved : s.resolve.result = .ok identity) (usable : s.isUsable identity = true)
    (signs : (s.sign (Request.ofHead head payload) identity directive).result = .ok signed) :
    (s.run payload directive).log head =
      s.resolve.log ++ (s.sign (Request.ofHead head payload) identity directive).log ++
        [⟨.debug, "signed request: " ++ signed.method.text ++ " " ++ signed.path⟩] := by
  simp only [run, HeadSigning.log_bind, HeadSigning.log_lift, HeadSigning.outcome_lift, resolved,
    usable, signs, Bool.not_true, Bool.false_eq_true, if_false, HeadSigning.log_get,
    HeadSigning.outcome_get, Signing.log_ofLogged, Signing.result_ofLogged, log_debug,
    HeadSigning.log_onHead, List.nil_append, List.append_nil, List.append_assoc]

variable {resolve : Signing Identity} {c : Config} {wall now : Instant} {payload : Payload}
  {directive : Option Checksum.Directive} {head head' : Head} {credential k₁ k₂ : Credential}
  {t₁ t₂ : String}

lemma ofSource_log (resolved : resolve.result = .ok (.keyed credential))
    (sent : ((ofSource resolve c wall now).run payload directive).outcome head = (.ok (), head')) :
    ∃ signed, (Signer.sign c now (Request.ofHead head payload) (.keyed credential)
        directive).result = .ok signed ∧
      ((ofSource resolve c wall now).run payload directive).log head =
        resolve.log ++ (Signer.sign c now (Request.ofHead head payload) (.keyed credential)
          directive).log ++
          [⟨.debug, "signed request: " ++ head.method.text ++ " " ++
            (Request.ofHead head payload).path⟩] := by
  obtain ⟨usable, signed, signs, -⟩ := (outcome_ofSource_eq_ok resolved).1 sent
  refine ⟨signed, signs, ?_⟩
  have hlog := run_log (s := ofSource resolve c wall now) resolved usable signs
  rw [hlog, Signer.sign_rest signs]
  rfl

lemma exists_sent (resolved : resolve.result = .ok (.keyed credential))
    (usable : credential.isUsable wall = true)
    (calculates : ∃ signed out, (Signer.calculate c (Request.ofHead head payload) credential
      directive now).result = .ok (signed, out)) :
    ∃ signed head', (Signer.sign c now (Request.ofHead head payload) (.keyed credential)
        directive).result = .ok signed ∧
      ((ofSource resolve c wall now).run payload directive).outcome head = (.ok (), head') := by
  obtain ⟨signed, hcalculate⟩ := calculates
  exact ⟨signed, _, Signer.sign_keyed_eq_ok.2 hcalculate,
    outcome_of_calculate resolve wall resolved usable hcalculate⟩

/-- **What the records tell of a credential.** Of two runs that differ in the credential and sign,
the records are the same exactly if the configuration conceals which token it was: tokens are not
signed, or are left out, or fold alike. The rest of the credential is never told. This holds for the
records of a signature, and for those of a signed head, if the two sources of identities wrote the
same. -/
theorem log_eq_iff_conceals (h₁ : k₁.sessionToken = some t₁) (h₂ : k₂.sessionToken = some t₂)
    (c : Config) (now : Instant) (directive : Option Checksum.Directive) :
    (∀ {r s₁ s₂ : Request},
      (Signer.sign c now r (.keyed k₁) directive).result = .ok s₁ →
      (Signer.sign c now r (.keyed k₂) directive).result = .ok s₂ →
      ((Signer.sign c now r (.keyed k₁) directive).log =
          (Signer.sign c now r (.keyed k₂) directive).log ↔ c.Conceals t₁ t₂)) ∧
    (∀ {resolve₁ resolve₂ : Signing Identity} {wall : Instant} {payload : Payload}
        {head head₁ head₂ : Head},
      resolve₁.result = .ok (.keyed k₁) → resolve₂.result = .ok (.keyed k₂) →
      resolve₁.log = resolve₂.log →
      ((ofSource resolve₁ c wall now).run payload directive).outcome head = (.ok (), head₁) →
      ((ofSource resolve₂ c wall now).run payload directive).outcome head = (.ok (), head₂) →
      (((ofSource resolve₁ c wall now).run payload directive).log head =
          ((ofSource resolve₂ c wall now).run payload directive).log head ↔
        c.Conceals t₁ t₂)) := by
  refine ⟨fun signs₁ signs₂ => Signer.sign_log_eq_log_iff h₁ h₂ signs₁ signs₂,
    fun resolved₁ resolved₂ hsource sent₁ sent₂ => ?_⟩
  obtain ⟨s₁, signs₁, hlog₁⟩ := ofSource_log resolved₁ sent₁
  obtain ⟨s₂, signs₂, hlog₂⟩ := ofSource_log resolved₂ sent₂
  rw [hlog₁, hlog₂, hsource, List.append_cancel_right_eq, List.append_cancel_left_eq]
  exact Signer.sign_log_eq_log_iff h₁ h₂ signs₁ signs₂

/-- Two key pairs whose tokens are not signed. -/
theorem log_eq_log_of_unsigned :
    let c := Config.forService "demo" "us-east-1"
    let k₁ := (Credential.ofKeys "id" "key").withSessionToken "token-a"
    let k₂ := (Credential.ofKeys "id" "other").withSessionToken "token-b"
    let host : HeaderValue := ⟨utf8 "h", false, by decide⟩
    let head : Head := ⟨.get, .origin ⟨"/", none⟩, ⟨[(.host, host)]⟩⟩
    let r := Request.ofHead head .unsigned
    let now : Instant := ⟨⟨2015, 8, 30, by decide, by decide⟩, 12, 36, 0, 0, by decide, by decide,
      by decide, by decide⟩
    let run₁ := (ofSource (pure (.keyed k₁)) c now now).run .unsigned none
    let run₂ := (ofSource (pure (.keyed k₂)) c now now).run .unsigned none
    ∃ s₁ s₂ head₁ head₂,
      (Signer.sign c now r (.keyed k₁) none).result = .ok s₁ ∧
      (Signer.sign c now r (.keyed k₂) none).result = .ok s₂ ∧
      run₁.outcome head = (.ok (), head₁) ∧ run₂.outcome head = (.ok (), head₂) ∧
      (Signer.sign c now r (.keyed k₁) none).log = (Signer.sign c now r (.keyed k₂) none).log ∧
      run₁.log head = run₂.log head := by
  intro c k₁ k₂ host head r now run₁ run₂
  have hpath : Canonical.path c r = .ok "/" := by cbv
  have opened₁ : Signer.opening c k₁ now = .ok ⟨"20150830", "us-east-1", "demo"⟩ := by cbv
  have opened₂ : Signer.opening c k₂ now = .ok ⟨"20150830", "us-east-1", "demo"⟩ := by cbv
  have calculates₁ := Signer.exists_calculate_of_host opened₁ (r := r) (by decide) (by decide) rfl
    hpath (by decide) (by decide) (by decide) (by decide) (by decide)
  have calculates₂ := Signer.exists_calculate_of_host opened₂ (r := r) (by decide) (by decide) rfl
    hpath (by decide) (by decide) (by decide) (by decide) (by decide)
  have resolved (k : Credential) :
      (pure (.keyed k) : Signing Identity).result = .ok (.keyed k) := rfl
  have usable₁ : k₁.isUsable now = true := by decide
  have usable₂ : k₂.isUsable now = true := by decide
  obtain ⟨s₁, head₁, signs₁, sent₁⟩ := exists_sent (resolved k₁) usable₁ calculates₁
  obtain ⟨s₂, head₂, signs₂, sent₂⟩ := exists_sent (resolved k₂) usable₂ calculates₂
  have htoken₁ : k₁.sessionToken = some "token-a" := rfl
  have htoken₂ : k₂.sessionToken = some "token-b" := rfl
  have hconceals : c.Conceals "token-a" "token-b" := fun hmode => by cases hmode
  obtain ⟨hsign, hhead⟩ := log_eq_iff_conceals htoken₁ htoken₂ c now none
  exact ⟨s₁, s₂, head₁, head₂, signs₁, signs₂, sent₁, sent₂, (hsign signs₁ signs₂).2 hconceals,
    (hhead (resolved k₁) (resolved k₂) rfl sent₁ sent₂).2 hconceals⟩

/-- Two key pairs whose tokens are signed: the records of the signatures differ. -/
theorem log_ne_log_of_signed :
    let c := (Config.forService "demo" "us-east-1").withSignSecurityToken true
    let k₁ := (Credential.ofKeys "id" "key").withSessionToken "token-a"
    let k₂ := (Credential.ofKeys "id" "other").withSessionToken "token-b"
    let host : HeaderValue := ⟨utf8 "h", false, by decide⟩
    let r := Request.ofHead ⟨.get, .absolute .http ⟨"h"⟩ ⟨"/", none⟩, ⟨[(.host, host)]⟩⟩ .unsigned
    let now : Instant := ⟨⟨2015, 8, 30, by decide, by decide⟩, 12, 36, 0, 0, by decide, by decide,
      by decide, by decide⟩
    ∃ s₁ s₂, (Signer.sign c now r (.keyed k₁) none).result = .ok s₁ ∧
      (Signer.sign c now r (.keyed k₂) none).result = .ok s₂ ∧
      (Signer.sign c now r (.keyed k₁) none).log ≠ (Signer.sign c now r (.keyed k₂) none).log := by
  intro c k₁ k₂ host r now
  have hpath : Canonical.path c r = .ok "/" := by cbv
  have opened₁ : Signer.opening c k₁ now = .ok ⟨"20150830", "us-east-1", "demo"⟩ := by cbv
  have opened₂ : Signer.opening c k₂ now = .ok ⟨"20150830", "us-east-1", "demo"⟩ := by cbv
  obtain ⟨s₁, out₁, h₁⟩ := Signer.exists_calculate_of_host opened₁ (r := r) (by decide) (by decide)
    rfl hpath (by decide) (by decide) (by decide) (by decide) (by decide)
  obtain ⟨s₂, out₂, h₂⟩ := Signer.exists_calculate_of_host opened₂ (r := r) (by decide) (by decide)
    rfl hpath (by decide) (by decide) (by decide) (by decide) (by decide)
  have signs₁ : (Signer.sign c now r (.keyed k₁) none).result = .ok s₁ :=
    Signer.sign_keyed_eq_ok.2 ⟨out₁, h₁⟩
  have signs₂ : (Signer.sign c now r (.keyed k₂) none).result = .ok s₂ :=
    Signer.sign_keyed_eq_ok.2 ⟨out₂, h₂⟩
  have htoken₁ : k₁.sessionToken = some "token-a" := rfl
  have htoken₂ : k₂.sessionToken = some "token-b" := rfl
  refine ⟨s₁, s₂, signs₁, signs₂, fun hlog => ?_⟩
  have hconceals := (Signer.sign_log_eq_log_iff htoken₁ htoken₂ signs₁ signs₂).1 hlog
  have hfold : Canonical.fold "token-a" = Canonical.fold "token-b" := hconceals rfl (by decide)
  revert hfold
  decide

end HeadSigner

end SigV4
