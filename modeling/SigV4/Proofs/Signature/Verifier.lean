import Mathlib
import SigV4.Proofs.Signature.Stages

/-!
A verifier.

It shares the key pair with the sender, knows where and by which rules on paths requests are
signed and whether a checksum follows the body, and sees what was sent. It does not know which
headers the sender left out, which of them were there before, or what the sender hashed. It reads
the signed names and the signature off the authorization, from the right since anything may stand
in an access key id, and signs the canonical form of the named headers with the date that was
sent. What the sender does after the canonical form was taken must therefore leave every signed
header alone. Scope, key and signature are computed here from the date and the secret, with
nothing taken over from the sender, so that agreement says what a signature is.
-/

namespace SigV4

open Http (HeaderName HeaderValue)

/-- What a verifier knows beside the message. -/
structure Verifier where
  accessKeyId : String
  secretAccessKey : String
  region : String
  service : String
  pathEncoding : PathEncoding
  normalizePath : Bool
  hasTrailer : Bool

/-- What a verifier finds: what the message states, and what it should state. -/
structure Verifier.Findings where
  signedHeaders : String
  signature : String
  canonicalRequest : String
  expected : String
  deriving DecidableEq

namespace Verifier

/-- The verifier of what is signed under a configuration with a credential. -/
def of (c : Config) (credential : Credential) (directive : Option Checksum.Directive) :
    Verifier where
  accessKeyId := credential.accessKeyId
  secretAccessKey := credential.secretAccessKey
  region := c.region
  service := c.service
  pathEncoding := c.pathEncoding
  normalizePath := c.normalizePath
  hasTrailer := Signer.hasTrailer directive

/-- The rules of the canonical form. No header is left out. -/
def config (v : Verifier) : Config where
  service := v.service
  region := v.region
  excluded := []
  pathEncoding := v.pathEncoding
  normalizePath := v.normalizePath
  contentHashHeader := false
  signSecurityToken := false

/-- Who signed, the signed names and the signature, cut from the right. -/
def readAuthorization (bs : Octets) : Option (Octets × String × String) := do
  let (front, signature) ← Joined.cutLast (utf8 ", Signature=") bs
  let (signer, names) ← Joined.cutLast (utf8 ", SignedHeaders=") front
  return (signer, ← (Utf8.decode names).toOption, ← (Utf8.decode signature).toOption)

/-- The names in a list separated by semicolons. -/
def namesOf (signedHeaders : String) : List String :=
  (signedHeaders.toList.splitOn ';').map String.ofList

def restrict (r : Request) (names : List String) : Request :=
  { r with headers := ⟨r.headers.entries.filter fun e => names.contains e.1.text⟩ }

/-- What stands for the payload where no hash of it was sent: its digest, or the name of a way to
send it without one. -/
def payloadText (v : Verifier) : Payload → String
  | .memory bs => Hex.encode (Digest.Sha256.digest bs)
  | .unsigned => "UNSIGNED-PAYLOAD"
  | .streaming _ =>
    if v.hasTrailer then "STREAMING-UNSIGNED-PAYLOAD-TRAILER" else "UNSIGNED-PAYLOAD"

/-- The payload hash that was sent, or else what stands for the payload. -/
def payloadHash (v : Verifier) (r : Request) : Except Error String := do
  let announced ← r.getText .contentHash
  return announced.getD (v.payloadText r.payload)

/-- The canonical form of the named headers of a message. -/
def canonical (v : Verifier) (r : Request) (names : List String) :
    Except Error CanonicalRequest := do
  CanonicalRequest.ofRequest v.config (restrict r names) (← v.payloadHash r)

/-- The day of a time stamp. -/
def day (stamp : String) : String := String.ofList (stamp.toList.takeWhile (· != 'T'))

/-- Where and when a signature with that time stamp is valid. -/
def scope (v : Verifier) (stamp : String) : String :=
  day stamp ++ "/" ++ v.region ++ "/" ++ v.service ++ "/" ++ "aws4_request"

/-- The key of that day, region and service, which are mixed into the secret one by one. -/
def key (v : Verifier) (stamp : String) : Octets :=
  let ofDay := Digest.hmacSha256 (utf8 ("AWS4" ++ v.secretAccessKey)) (utf8 (day stamp))
  let ofRegion := Digest.hmacSha256 ofDay (utf8 v.region)
  let ofService := Digest.hmacSha256 ofRegion (utf8 v.service)
  Digest.hmacSha256 ofService (utf8 "aws4_request")

/-- The signature of a canonical form, dated by a time stamp. -/
def sign (v : Verifier) (stamp canonical : String) : String :=
  let text := "AWS4-HMAC-SHA256" ++ "\n" ++ stamp ++ "\n" ++ v.scope stamp ++ "\n" ++
    Hex.encode (Digest.Sha256.digest (utf8 canonical))
  Hex.encode (Digest.hmacSha256 (v.key stamp) (utf8 text))

/-- Looks at a message that has one authorization and names the verifier's key. -/
def inspect (v : Verifier) (r : Request) : Option Findings := do
  let [sent] := r.headers.values .authorization | none
  let (signer, signedHeaders, signature) ← readAuthorization sent.octets
  let canonical ← (v.canonical r (namesOf signedHeaders)).toOption
  let stamp ← (← r.headers.get? .date).text?
  if signer = utf8 ("AWS4-HMAC-SHA256" ++ " Credential=" ++ v.accessKeyId ++ "/" ++
      v.scope stamp) then
    return ⟨signedHeaders, signature, canonical.text, v.sign stamp canonical.text⟩
  else none

/-! ### Reading the authorization -/

lemma readAuthorization_authorization (id : String) (scope : Scope) {names signature : String}
    (hnames : ',' ∉ names.toList) (hsignature : ',' ∉ signature.toList) :
    readAuthorization (utf8 (Signer.authorization id scope names signature)) =
      some (utf8 (Signer.algorithm ++ " Credential=" ++ id ++ "/" ++ scope.text), names,
        signature) := by
  have hcomma : ∀ s : String, ',' ∉ s.toList → (0x2C : UInt8) ∉ utf8 s := fun s hs =>
    Utf8.not_mem_utf8 (by decide) hs
  have hmark : utf8 ", Signature=" = 0x2C :: utf8 " Signature=" := by decide
  have hmark' : utf8 ", SignedHeaders=" = 0x2C :: utf8 " SignedHeaders=" := by decide
  have hlast := Joined.cutLast_append (hcomma " Signature=" (by decide)) (hcomma _ hsignature)
    (utf8 (Signer.algorithm ++ " Credential=" ++ id ++ "/" ++ scope.text ++ ", SignedHeaders=" ++
      names))
  have hfront := Joined.cutLast_append (hcomma " SignedHeaders=" (by decide)) (hcomma _ hnames)
    (utf8 (Signer.algorithm ++ " Credential=" ++ id ++ "/" ++ scope.text))
  rw [← hmark, ← List.append_assoc, ← utf8_append, ← utf8_append] at hlast
  rw [← hmark', ← List.append_assoc, ← utf8_append, ← utf8_append] at hfront
  simp only [readAuthorization, Signer.authorization, hlast, hfront, Option.bind_eq_bind,
    Option.bind_some, Utf8.decode_utf8, Except.toOption]
  rfl

/-! ### Signed names -/

lemma values_restrict (r : Request) (names : List String) (n : HeaderName) :
    (restrict r names).headers.values n =
      if names.contains n.text then r.headers.values n else [] := by
  unfold restrict Http.Headers.values
  rw [List.filterMap_filter]
  split
  · next hn =>
    refine List.filterMap_congr fun e _ => ?_
    by_cases he : e.1 = n
    · rw [he, hn, if_pos rfl]
    · simp [he]
  · next hn =>
    refine List.filterMap_eq_nil_iff.2 fun e _ => ?_
    by_cases he : e.1 = n
    · rw [he, if_neg hn]
    · simp [he]

variable {c : Config} {r : Request} {hash : String} {a : CanonicalRequest}

lemma comma_not_mem_signedHeaders (h : CanonicalRequest.ofRequest c r hash = .ok a) :
    ',' ∉ a.signedHeaders.toList := by
  intro hc
  rw [CanonicalRequest.signedHeaders, String.toList_intercalate] at hc
  rcases Joined.mem_intercalate hc with hc | ⟨piece, hpiece, hc⟩
  · revert hc; decide
  · obtain ⟨s, hs, rfl⟩ := List.mem_map.1 hpiece
    obtain ⟨n, rfl⟩ := CanonicalRequest.exists_name_of_mem h hs
    exact n.not_mem_text (by decide) hc

lemma namesOf_signedHeaders (h : CanonicalRequest.ofRequest c r hash = .ok a)
    (hne : a.headers.map Prod.fst ≠ []) :
    namesOf a.signedHeaders = a.headers.map Prod.fst := by
  have hmark : ∀ name ∈ a.headers.map Prod.fst, ';' ∉ name.toList := by
    intro name hname
    obtain ⟨m, rfl⟩ := CanonicalRequest.exists_name_of_mem h hname
    exact m.not_mem_text (by decide)
  have hback : String.ofList ∘ String.toList = id := funext fun _ => String.ofList_toList
  rw [namesOf, CanonicalRequest.signedHeaders, Joined.splitOn_toList_intercalate rfl hne hmark,
    List.map_map, hback, List.map_id]

lemma namesOf_signedHeaders_of_nil (hnil : a.headers.map Prod.fst = []) :
    namesOf a.signedHeaders = [""] := by
  rw [namesOf, CanonicalRequest.signedHeaders, hnil]
  rfl

/-- **The signed names are read back**, and no other header name is among them. -/
lemma contains_namesOf (h : CanonicalRequest.ofRequest c r hash = .ok a) (n : HeaderName) :
    (namesOf a.signedHeaders).contains n.text = true ↔ n ∈ Canonical.signedNames c r := by
  rw [← Canonical.mem_headers_fst (CanonicalRequest.ofRequest_eq_ok h).2.1, List.contains_iff_mem]
  by_cases hnil : a.headers.map Prod.fst = []
  · have hempty : n.text ≠ "" := n.isName.1
    simp [namesOf_signedHeaders_of_nil hnil, hnil, hempty]
  · rw [namesOf_signedHeaders h hnil]

/-! ### Agreement -/

lemma day_stamp (t : Instant) : day t.stamp = t.dateStamp := by
  have hdate : ∀ c ∈ t.dateStamp.toList, (c != 'T') = true := by
    intro c hc
    rw [bne_iff_ne]
    rintro rfl
    exact t.not_mem_dateStamp (by decide) hc
  obtain ⟨clock, hstamp, -⟩ := t.exists_stamp_eq
  rw [day, hstamp, String.append_assoc, String.toList_append, List.takeWhile_append_of_pos hdate]
  simp

variable {credential : Credential} {directive : Option Checksum.Directive} {now : Instant}
  {signed : Request} {out : SigningOutput}

lemma scope_stamp (c : Config) (credential : Credential) (directive : Option Checksum.Directive)
    (now : Instant) : (Verifier.of c credential directive).scope now.stamp =
      Scope.text ⟨now.dateStamp, c.region, c.service⟩ := by
  rw [scope, day_stamp]
  rfl

lemma key_stamp (c : Config) (credential : Credential) (directive : Option Checksum.Directive)
    (now : Instant) : (Verifier.of c credential directive).key now.stamp =
      (SigningKey.derive credential.secretAccessKey
        ⟨now.dateStamp, c.region, c.service⟩).octets := by
  rw [key, day_stamp]
  rfl

lemma sign_stamp (c : Config) (credential : Credential) (directive : Option Checksum.Directive)
    (now : Instant) (canonical : String) :
    (Verifier.of c credential directive).sign now.stamp canonical =
      (SigningKey.derive credential.secretAccessKey ⟨now.dateStamp, c.region, c.service⟩).sign
        (Signer.stringToSign now ⟨now.dateStamp, c.region, c.service⟩ canonical) := by
  rw [sign, scope_stamp, key_stamp]
  rfl

lemma payloadText_of (c : Config) (credential : Credential)
    (directive : Option Checksum.Directive) (p : Payload) :
    (Verifier.of c credential directive).payloadText p =
      Integrity.payloadHash (Signer.hasTrailer directive) p := by
  cases p with
  | memory | unsigned | streaming => rfl

/-- The verifier's canonical form of what was sent is the signer's of what it prepared. -/
lemma canonical_signed (st : Signer.Stages c r credential directive now signed out)
    (hauth : HeaderName.authorization ∉ Signer.guardNames directive)
    (htoken : HeaderName.securityToken ∉ Signer.guardNames directive) :
    (Verifier.of c credential directive).canonical signed (namesOf st.canonical.signedHeaders) =
      .ok st.canonical := by
  have hdated := (Signer.addDated_spec st.dated).1
  have hattached := (Signer.attach_spec st.attached).1
  -- The payload hash is settled before the canonical form is taken.
  have hhash : (Verifier.of c credential directive).payloadHash signed = .ok st.hash := by
    have hsettled := (Signer.groundwork_spec st.grounded).2.1.congr st.values_contentHash
      (hattached.payload.trans hdated.payload)
    obtain ⟨announced, htext, hget⟩ := hsettled.exists_getText
    rw [payloadHash, htext, Outcome.ok_bind, payloadText_of]
    exact congrArg Except.ok hget
  -- A name is kept exactly if it is signed, and then its values are the signed ones.
  have hvalues : ∀ n, Canonical.signedValues (Verifier.of c credential directive).config
      (restrict signed (namesOf st.canonical.signedHeaders)) n =
        Canonical.signedValues c st.prepared n := by
    intro n
    have hkept : Canonical.signedValues (Verifier.of c credential directive).config
        (restrict signed (namesOf st.canonical.signedHeaders)) n =
          (restrict signed (namesOf st.canonical.signedHeaders)).headers.values n := rfl
    rw [hkept, values_restrict]
    by_cases hn : n ∈ Canonical.signedNames c st.prepared
    · have hne := Canonical.mem_signedNames.1 hn
      rw [if_pos ((contains_namesOf st.formed n).2 hn), ← Canonical.values_of_mem_signedNames hn]
      rw [← Canonical.values_of_mem_signedNames hn] at hne
      exact st.values_signed_of_ne_nil hauth htoken hne
    · rw [if_neg fun h => hn ((contains_namesOf st.formed n).1 h)]
      exact (not_not.1 fun hne => hn (Canonical.mem_signedNames.2 hne)).symm
  rw [canonical, hhash, Outcome.ok_bind, ← st.formed]
  exact CanonicalRequest.ofRequest_congr rfl rfl hattached.method hattached.path hattached.query
    hvalues

/-- **A verifier agrees with the signer.** Of every request that was signed it reads the signed
names and the signature, computes the canonical form that was signed, and comes to that
signature. A checksum under the name of the authorization or of the token is left out. -/
theorem inspect_signed
    (hauth : ∀ d ∈ directive, d.placement = .header →
      HeaderName.ofText? d.headerName ≠ some .authorization)
    (htoken : ∀ d ∈ directive, d.placement = .header →
      HeaderName.ofText? d.headerName ≠ some .securityToken)
    (h : (Signer.calculate c r credential directive now).result = .ok (signed, out)) :
    (Verifier.of c credential directive).inspect signed =
      some ⟨out.signedHeaders, out.signature, out.canonicalRequest, out.signature⟩ := by
  obtain ⟨st⟩ := Signer.calculate_eq_ok.1 h
  have hnames : out.signedHeaders = st.canonical.signedHeaders := congrArg _ st.out_eq
  have htext : out.canonicalRequest = st.canonical.text := congrArg _ st.out_eq
  have hsignature : out.signature = (SigningKey.derive credential.secretAccessKey st.scope).sign
      (Signer.stringToSign now st.scope st.canonical.text) := congrArg _ st.out_eq
  -- What the authorization states is read back.
  obtain ⟨-, sent, hsent, hsents⟩ := Signer.attach_spec st.attached
  have hcomma : ',' ∉ out.signature.toList := by
    rw [hsignature]
    exact fun hc => absurd (Hex.isTokenChar_of_mem_encode hc) (by decide)
  have hread := readAuthorization_authorization credential.accessKeyId st.scope
    (comma_not_mem_signedHeaders st.formed) hcomma
  rw [← hnames, ← (HeaderValue.ofText?_eq_some hsent).1] at hread
  -- The canonical form is the one that was signed.
  have hcanonical := canonical_signed st (Signer.not_mem_guardNames (by decide) hauth)
    (Signer.not_mem_guardNames (by decide) htoken)
  rw [← hnames] at hcanonical
  -- The date is the one that was signed, and its day is the one of the scope.
  obtain ⟨date, hdate, hdates⟩ := st.exists_values_date
  have hget : signed.headers.get? .date = some date := by
    rw [Http.Headers.get?, hdates]
    rfl
  have hstamp := Http.text?_of_isVisible now.isVisible_stamp hdate
  have hscope : (Verifier.of c credential directive).scope now.stamp = st.scope.text := by
    rw [scope_stamp, Signer.scope_of_opening st.opened]
  have hsign : (Verifier.of c credential directive).sign now.stamp st.canonical.text =
      out.signature := by
    rw [sign_stamp, ← Signer.scope_of_opening st.opened, hsignature]
  simp only [inspect, hsents, HeaderValue.octets_hide, hread, hcanonical, hget, hstamp,
    Except.toOption, Option.bind_eq_bind, Option.bind_some, hscope, hsign]
  rw [htext]
  exact if_pos rfl

/-- A streamed upload with a temporary credential, a trailer and a header that is left out. -/
theorem inspect_signed_of_streamed :
    let c := Config.forService "demo" "us-east-1"
    let host : HeaderValue := ⟨utf8 "h", false, by decide⟩
    let agent : HeaderValue := ⟨utf8 "a; b, SignedHeaders=c", false, by decide⟩
    let r := Request.ofHead ⟨.get, .origin ⟨"/a", none⟩,
      ⟨[(.host, host), (⟨"user-agent", by decide⟩, agent)]⟩⟩ (.streaming none)
    let credential := (Credential.ofKeys "id, Signature=" "key").withSessionToken "token"
    let directive := some (Checksum.Directive.of .crc32 .trailer)
    let now : Instant := ⟨⟨2015, 8, 30, by decide, by decide⟩, 12, 36, 0, 0, by decide, by decide,
      by decide, by decide⟩
    ∃ signed out, (Signer.calculate c r credential directive now).result = .ok (signed, out) ∧
      (Verifier.of c credential directive).inspect signed =
        some ⟨out.signedHeaders, out.signature, out.canonicalRequest, out.signature⟩ := by
  intro c host agent r credential directive now
  let trailer : HeaderValue := ⟨utf8 "x-amz-checksum-crc32", false, by decide⟩
  let date : HeaderValue := ⟨utf8 "20150830T123600Z", false, by decide⟩
  have opened : Signer.opening c credential now = .ok ⟨"20150830", "us-east-1", "demo"⟩ := by cbv
  have grounded : Signer.groundwork c directive r =
      .ok ({ r with headers := r.headers.append .trailer trailer },
        Integrity.trailingPayload) := by cbv
  have dated : Signer.addDated c credential now
      { r with headers := r.headers.append .trailer trailer } =
      .ok { r with headers := (r.headers.append .trailer trailer).append .date date } := by cbv
  obtain ⟨canonical, formed⟩ : ∃ a, CanonicalRequest.ofRequest c
      { r with headers := (r.headers.append .trailer trailer).append .date date }
      Integrity.trailingPayload = .ok a :=
    CanonicalRequest.exists_ofRequest (p := "/a") (by cbv) (by decide)
  obtain ⟨signed, out, h⟩ := Signer.exists_calculate opened grounded dated formed (by decide)
    (by decide) (by decide) (by decide)
  refine ⟨signed, out, h, inspect_signed ?_ ?_ h⟩
  · decide
  · decide

end Verifier

end SigV4
