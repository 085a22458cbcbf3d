import SigV4.Proofs.Signature.Stages

/-!
Who has to act when a request is not signed.

Opening a signature can fail for the configuration or for the credential, in this order, and
guarding the payload can fail for want of a checksum. Every other step fails, if at all, for a
fault of the request. So a computation that goes from step to step blames the request unless
one of these three found a fault before.
-/

namespace SigV4

open Checksum (Directive)
open Http (HeaderName)

namespace Outcome

variable {α β : Type} {k l : Error.Kind}

/-- The computation fails, and that is who has to act. -/
def FailsWith (k : Error.Kind) (x : Except Error α) : Prop := ∃ e, x = .error e ∧ e.kind = k

/-- Whatever the computation fails for, that is who has to act. -/
def Blames (k : Error.Kind) (x : Except Error α) : Prop := ∀ e, x = .error e → e.kind = k

lemma FailsWith.iff {x : Except Error α} (hx : FailsWith k x) : FailsWith l x ↔ l = k := by
  obtain ⟨e, rfl, rfl⟩ := hx
  constructor
  · rintro ⟨_, ⟨⟩, rfl⟩
    rfl
  · rintro rfl
    exact ⟨e, rfl, rfl⟩

namespace Blames

lemma ok (a : α) : Blames k (.ok a : Except Error α) := by rintro e ⟨⟩

lemma error {e : Error} (h : e.kind = k) : Blames k (.error e : Except Error α) := by
  rintro _ ⟨⟩
  exact h

lemma bind {x : Except Error α} {f : α → Except Error β} (hx : Blames k x)
    (hf : ∀ a, Blames k (f a)) : Blames k (x >>= f) := by
  intro e he
  rcases bind_eq_error.1 he with he | ⟨a, -, he⟩
  · exact hx e he
  · exact hf a e he

lemma map {x : Except Error α} (hx : Blames k x) (f : α → β) : Blames k (x.map f) := by
  cases x with
  | error e => exact .error (hx e rfl)
  | ok a => exact .ok (f a)

lemma failsWith_iff {x : Except Error α} (hx : Blames k x) :
    FailsWith l x ↔ l = k ∧ ∃ e, x = .error e := by
  constructor
  · rintro ⟨e, he, rfl⟩
    exact ⟨hx e he, e, he⟩
  · rintro ⟨rfl, e, he⟩
    exact ⟨e, he, hx e he⟩

end Blames

/-- Who has to act on a failure: the configuration for want of a scope, or else the credential for
want of a key, or else the payload for want of a guard, or else the request. -/
structure IsJudged (scopeless keyless unguarded : Prop) (x : Except Error α) : Prop where
  configInvalid : FailsWith .configInvalid x ↔ scopeless
  credentialInvalid : FailsWith .credentialInvalid x ↔ ¬ scopeless ∧ keyless
  payloadInvalid : FailsWith .payloadInvalid x ↔ ¬ scopeless ∧ ¬ keyless ∧ unguarded
  requestInvalid : FailsWith .requestInvalid x ↔
    (¬ scopeless ∧ ¬ keyless ∧ ¬ unguarded) ∧ ∃ e, x = .error e
  unexpected : ¬ FailsWith .unexpected x
  credentialExpired : ¬ FailsWith .credentialExpired x

namespace IsJudged

variable {scopeless keyless unguarded : Prop} {x : Except Error α}

lemma of_configInvalid (h : scopeless) (hx : FailsWith .configInvalid x) :
    IsJudged scopeless keyless unguarded x := by
  constructor <;> simp [hx.iff, h]

lemma of_credentialInvalid (hscope : ¬ scopeless) (h : keyless)
    (hx : FailsWith .credentialInvalid x) : IsJudged scopeless keyless unguarded x := by
  constructor <;> simp [hx.iff, hscope, h]

lemma of_payloadInvalid (hscope : ¬ scopeless) (hkeys : ¬ keyless) (h : unguarded)
    (hx : FailsWith .payloadInvalid x) : IsJudged scopeless keyless unguarded x := by
  constructor <;> simp [hx.iff, hscope, hkeys, h]

lemma of_blames (hscope : ¬ scopeless) (hkeys : ¬ keyless) (hguard : ¬ unguarded)
    (hx : Blames .requestInvalid x) : IsJudged scopeless keyless unguarded x := by
  constructor <;> simp [hx.failsWith_iff, hscope, hkeys, hguard]

end IsJudged

end Outcome

open Outcome (Blames IsJudged)

/-! ### Steps that blame the request -/

namespace Request

variable (r : Request) (n : HeaderName) (name value : String) (v : Http.HeaderValue)

lemma blames_readName : Blames .requestInvalid (readName name) := by
  unfold readName
  split
  · exact .ok _
  · exact .error rfl

lemma blames_writeValue : Blames .requestInvalid (writeValue value) := by
  unfold writeValue
  split
  · exact .ok _
  · exact .error rfl

lemma blames_readValue : Blames .requestInvalid (readValue v) := by
  unfold readValue
  split
  · exact .ok _
  · exact .error rfl

lemma blames_addText : Blames .requestInvalid (r.addText n value) :=
  .bind (blames_writeValue value) fun _ => .ok _

lemma blames_putText : Blames .requestInvalid (r.putText n value) :=
  .bind (blames_writeValue value) fun _ => .ok _

lemma blames_getText : Blames .requestInvalid (r.getText n) := by
  unfold getText
  split
  · exact .ok _
  · exact (blames_readValue _).map some

lemma blames_insertHeader : Blames .requestInvalid (r.insertHeader name value) :=
  .bind (blames_readName name) fun n => blames_putText r n value

end Request

namespace Canonical

lemma blames_path (c : Config) (r : Request) : Blames .requestInvalid (path c r) := by
  rw [path_eq]
  refine .map ?_ _
  unfold readPath
  split
  · exact .ok _
  · unfold Request.decodedPath
    cases Utf8.decode (Percent.decode (utf8 r.path)) with
    | error fault => exact .error rfl
    | ok path => exact .ok path

lemma blames_headers (c : Config) (r : Request) :
    Blames .requestInvalid (headers c r) := by
  rw [headers_eq]
  split
  · exact .ok _
  · exact .error rfl

end Canonical

namespace CanonicalRequest

lemma blames_ofRequest (c : Config) (r : Request) (hash : String) :
    Blames .requestInvalid (ofRequest c r hash) :=
  .bind (Canonical.blames_path c r) fun _ => .bind (Canonical.blames_headers c r) fun _ => .ok _

end CanonicalRequest

namespace Integrity

lemma blames_isAnnounced (name : String) (vs : List Http.HeaderValue) :
    Blames .requestInvalid (isAnnounced name vs) := by
  induction vs with
  | nil => exact .ok false
  | cons v vs ih =>
    refine .bind (Request.blames_readValue v) fun value => ?_
    split
    · exact .ok true
    · exact ih

lemma blames_announceTrailer (d : Directive) (r : Request) :
    Blames .requestInvalid (announceTrailer d r).result := by
  rw [announceTrailer_result]
  refine .bind (blames_isAnnounced _ _) fun announced => ?_
  cases announced with
  | true => exact .ok r
  | false => exact Request.blames_addText r .trailer d.headerName

lemma blames_resolveHash (c : Config) (hasTrailer : Bool) (r : Request) :
    Blames .requestInvalid (resolveHash c hasTrailer r) := by
  refine .bind (Request.blames_getText r _) fun existing => ?_
  split
  · exact .ok _
  · split
    · exact .bind (Request.blames_putText r _ _) fun _ => .ok _
    · exact .ok _

end Integrity

namespace Signer

variable (c : Config) (r : Request) (credential : Credential) (now : Instant)

lemma blames_putHidden (n : HeaderName) (value : String) :
    Blames .requestInvalid (putHidden r n value) :=
  .bind (Request.blames_writeValue value) fun _ => .ok _

lemma blames_addHost : Blames .requestInvalid (addHost r) := by
  unfold addHost
  split
  · exact .ok r
  · split
    · exact Request.blames_putText r _ _
    · exact .error rfl

lemma blames_addDated : Blames .requestInvalid (addDated c credential now r) := by
  refine .bind (Request.blames_putText r _ _) fun dated => ?_
  split
  · exact blames_putHidden dated _ _
  · exact .ok dated

lemma blames_attachToken (earlier : Option Http.HeaderValue) :
    Blames .requestInvalid (attachToken credential earlier r) := by
  unfold attachToken
  split
  · exact blames_putHidden r _ _
  · exact .ok _
  · exact .ok r

lemma blames_attach (earlier : Option Http.HeaderValue) (text : String) :
    Blames .requestInvalid (attach c credential earlier text r) := by
  refine .bind (blames_putHidden r _ _) fun sent => ?_
  split
  · exact .ok sent
  · exact blames_attachToken sent credential earlier

lemma blames_closing (scope : Scope) (earlier : Option Http.HeaderValue) (hash : String) :
    Blames .requestInvalid (closing c credential now scope earlier r hash) :=
  .bind (CanonicalRequest.blames_ofRequest c r hash) fun _ =>
    .bind (blames_attach c r credential earlier _) fun _ => .ok _

end Signer

/-! ### Steps that blame somebody else -/

/-- The directive asks for a checksum in a header, and there is none to be had: none is given, the
payload is not at hand, and no header of that name is left once those of an earlier signature are
dropped. -/
structure LacksChecksum (c : Config) (r : Request) (d : Directive) : Prop where
  placement : d.placement = .header
  value : d.value = none
  payload : ∀ bs, r.payload ≠ .memory bs
  header : ∀ n, HeaderName.ofText? d.headerName = some n → n ≠ .authorization →
    (c.signSecurityToken = false → n ≠ .securityToken) → r.headers.values n = []

namespace Signer

variable {c : Config} {r : Request} {credential : Credential} {directive : Option Directive}
  {now : Instant}

lemma hasHeader_strip (c : Config) (r : Request) (name : String) :
    (strip c r).hasHeader name = false ↔ ∀ n, HeaderName.ofText? name = some n →
      n ≠ .authorization → (c.signSecurityToken = false → n ≠ .securityToken) →
        r.headers.values n = [] := by
  unfold Request.hasHeader
  cases HeaderName.ofText? name with
  | none => simp
  | some m =>
    have hcontains : (strip c r).headers.contains m = false ↔
        (strip c r).headers.values m = [] := by
      rw [← Bool.not_eq_true, Http.Headers.contains_iff, not_not]
    simp only [hcontains, values_strip, ite_eq_right_iff, and_imp, Option.some.injEq,
      forall_eq']

lemma headerChecksum_eq_error {d : Directive} {payload : Payload} {e : Error} :
    Integrity.headerChecksum d payload = .error e ↔
      d.value = none ∧ (∀ bs, payload ≠ .memory bs) ∧
        e = .payloadNotInMemory d.algorithm d.headerName := by
  unfold Integrity.headerChecksum
  cases d.value <;> cases payload <;> simp [Payload.octets?, eq_comm]

lemma integrate_of_lacksChecksum {d : Directive} (h : LacksChecksum c r d) :
    (integrate (some d) (strip c r)).result =
      .error (.payloadNotInMemory d.algorithm d.headerName) := by
  have hmissing := (hasHeader_strip c r d.headerName).2 h.header
  have hchecksum := headerChecksum_eq_error.2 ⟨h.value, h.payload, rfl⟩
  have hpayload : (strip c r).payload = r.payload := rfl
  simp only [integrate, Integrity.integrate, h.placement]
  rw [Integrity.addHeader_result, hmissing, if_neg Bool.false_ne_true, hpayload, hchecksum]
  rfl

lemma blames_integrate (h : ∀ d ∈ directive, ¬ LacksChecksum c r d) :
    Blames .requestInvalid (integrate directive (strip c r)).result := by
  cases directive with
  | none => exact .ok _
  | some d =>
    simp only [integrate, Integrity.integrate]
    cases hplace : d.placement with
    | trailer => exact Integrity.blames_announceTrailer d _
    | header =>
      show Blames .requestInvalid (Integrity.addHeader d (strip c r)).result
      rw [Integrity.addHeader_result]
      split
      · exact .ok _
      · next hmissing =>
        refine .bind (fun e he => ?_) fun value => Request.blames_insertHeader _ _ value
        obtain ⟨hvalue, hpayload, -⟩ := headerChecksum_eq_error.1 he
        have hheader := (hasHeader_strip c r d.headerName).1 (by simpa using hmissing)
        exact absurd ⟨hplace, hvalue, hpayload, hheader⟩ (h d rfl)

/-! ### The whole computation -/

lemma calculate_of_opening {e : Error} (h : opening c credential now = .error e) :
    (calculate c r credential directive now).result = .error e := by
  rw [calculate_result, h]
  rfl

lemma calculate_of_integrate {scope : Scope} {e : Error}
    (opened : opening c credential now = .ok scope)
    (h : (integrate directive (strip c r)).result = .error e) :
    (calculate c r credential directive now).result = .error e := by
  rw [calculate_result, opened, Outcome.ok_bind, prepare_result, groundwork, h]
  rfl

/-- **A signature that was opened, for a payload that can be guarded, blames the request.** -/
lemma blames_calculate {scope : Scope} (opened : opening c credential now = .ok scope)
    (h : Blames .requestInvalid (integrate directive (strip c r)).result) :
    Blames .requestInvalid (calculate c r credential directive now).result := by
  have hground : Blames .requestInvalid (groundwork c directive r) :=
    .bind h fun guarded => .bind (Integrity.blames_resolveHash c _ guarded) fun hashed =>
      .bind (blames_addHost hashed.1) fun _ => .ok _
  rw [calculate_result, opened, Outcome.ok_bind, prepare_result]
  refine .bind ?_ fun p => blames_closing c p.1 credential now scope _ p.2
  exact .bind hground fun p => .bind (blames_addDated c p.1 credential now) fun _ => .ok _

/-- **Who has to act when a request is not signed.** The configuration answers for naming no scope,
or else the credential for want of a key, or else the payload for want of a checksum; for anything
else the request answers, whichever faults come together. -/
theorem isJudged_calculate (c : Config) (r : Request) (credential : Credential)
    (directive : Option Directive) (now : Instant) :
    IsJudged (c.service = "" ∨ c.region = "")
      (credential.accessKeyId = "" ∨ credential.secretAccessKey = "")
      (∃ d ∈ directive, LacksChecksum c r d)
      (calculate c r credential directive now).result := by
  have hopening := opening_eq c credential now
  by_cases hscope : c.service = "" ∨ c.region = ""
  · refine .of_configInvalid hscope ?_
    by_cases hservice : c.service = ""
    · rw [if_pos hservice] at hopening
      exact ⟨_, calculate_of_opening hopening, rfl⟩
    · rw [if_neg hservice, if_pos (hscope.resolve_left hservice)] at hopening
      exact ⟨_, calculate_of_opening hopening, rfl⟩
  · obtain ⟨hservice, hregion⟩ := not_or.1 hscope
    rw [if_neg hservice, if_neg hregion] at hopening
    by_cases hkeys : credential.accessKeyId = "" ∨ credential.secretAccessKey = ""
    · rw [if_pos hkeys] at hopening
      exact .of_credentialInvalid hscope hkeys ⟨_, calculate_of_opening hopening, rfl⟩
    · rw [if_neg hkeys] at hopening
      by_cases hlacks : ∃ d ∈ directive, LacksChecksum c r d
      · refine .of_payloadInvalid hscope hkeys hlacks ?_
        obtain ⟨d, rfl, hd⟩ := hlacks
        exact ⟨_, calculate_of_integrate hopening (integrate_of_lacksChecksum hd), rfl⟩
      · refine .of_blames hscope hkeys hlacks (blames_calculate hopening (blames_integrate ?_))
        exact fun d hd h => hlacks ⟨d, hd, h⟩

end Signer

end SigV4
