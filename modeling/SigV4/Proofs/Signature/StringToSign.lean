import Mathlib
import SigV4.Proofs.Signature.Stages

/-!
What is signed, line by line.

Region and service are written into the text to sign as they were given, and nothing looks for
line breaks in them there. But they are written into the authorization too, and no header value
holds a line break. So wherever a signature comes about, the text to sign has four lines, and
they can be told from it.
-/

namespace SigV4

/-- A line feed, a vertical tab, a form feed or a carriage return. -/
def isLineBreak (c : Char) : Bool := 10 ≤ c.toNat && c.toNat ≤ 13

/-- The text stays on one line. -/
def IsUnbroken (s : String) : Prop := ∀ c ∈ s.toList, isLineBreak c = false

/-- The lines of a text. -/
def linesOf (text : String) : List String := (text.toList.splitOn '\n').map String.ofList

lemma IsUnbroken.newline_not_mem {s : String} (h : IsUnbroken s) : '\n' ∉ s.toList :=
  fun hmem => absurd (h _ hmem) (by decide)

lemma linesOf_intercalate {lines : List String} (hne : lines ≠ [])
    (h : ∀ line ∈ lines, IsUnbroken line) : linesOf (String.intercalate "\n" lines) = lines := by
  have hmark : ∀ line ∈ lines, '\n' ∉ line.toList := fun line hline =>
    (h line hline).newline_not_mem
  have hback : String.ofList ∘ String.toList = id := funext fun _ => String.ofList_toList
  rw [linesOf, Joined.splitOn_toList_intercalate rfl hne hmark, List.map_map, hback, List.map_id]

lemma intercalate_linesOf (text : String) : String.intercalate "\n" (linesOf text) = text := by
  rw [linesOf, ← String.toList_inj, String.toList_intercalate, List.map_map]
  have hback : String.toList ∘ String.ofList = id := funext fun _ => String.toList_ofList
  rw [hback, List.map_id]
  exact List.intercalate_splitOn '\n'

namespace Http

lemma IsVisible.isUnbroken {s : String} (h : IsVisible s) : IsUnbroken s := by
  intro c hc
  have hrange := isVisibleChar_iff.1 (h c hc)
  simp only [isLineBreak, Bool.and_eq_false_iff, decide_eq_false_iff_not]
  omega

lemma isUnbroken_of_ofText? {s : String} {v : HeaderValue} (hv : HeaderValue.ofText? s = some v) :
    IsUnbroken s := by
  intro c hc
  rw [← Bool.not_eq_true]
  intro hbreak
  simp only [isLineBreak, Bool.and_eq_true, decide_eq_true_eq] at hbreak
  have hmem : UInt8.ofNat c.toNat ∈ v.octets := by
    rw [(HeaderValue.ofText?_eq_some hv).1]
    refine List.mem_flatMap.2 ⟨c, hc, ?_⟩
    rw [Utf8.utf8EncodeChar_of_lt (by omega)]
    exact List.mem_singleton_self _
  have hlegal := List.all_eq_true.1 v.isValue _ hmem
  simp only [isValueOctet, Bool.or_eq_true, Bool.and_eq_true, decide_eq_true_eq, bne_iff_ne,
    beq_iff_eq, Utf8.toNat_ofNat (by omega : c.toNat < 256)] at hlegal
  omega

end Http

lemma IsUnbroken.of_append_left {s t : String} (h : IsUnbroken (s ++ t)) : IsUnbroken s :=
  fun c hc => h c (by rw [String.toList_append]; exact List.mem_append_left _ hc)

lemma IsUnbroken.of_append_right {s t : String} (h : IsUnbroken (s ++ t)) : IsUnbroken t :=
  fun c hc => h c (by rw [String.toList_append]; exact List.mem_append_right _ hc)

namespace Hex

/-- A hexadecimal digit in lower case. -/
def isLowerHex (c : Char) : Bool := "0123456789abcdef".toList.contains c

end Hex

namespace Signer

variable {c : Config} {r : Request} {credential : Credential} {now : Instant}
  {directive : Option Checksum.Directive} {signed : Request} {out : SigningOutput}

/-- The text of the only date that a request is sent with. -/
def sentStamp (r : Request) : Option String :=
  match r.headers.values .date with
  | [v] => v.text?
  | _ => none

/-- The hash of the canonical form. -/
def canonicalHash (out : SigningOutput) : String :=
  Hex.encode (Digest.Sha256.digest (utf8 out.canonicalRequest))

/-- The lines of a text to sign: how, when, where and what was signed. -/
def itemsOf (stamp : String) (out : SigningOutput) : List String :=
  [algorithm, stamp, out.scope, canonicalHash out]

/-- The text to sign names one instant, one scope and one canonical form: it has four lines, and
the scope begins with the day of the only date that is sent. -/
structure IsItemized (signed : Request) (out : SigningOutput) (stamp : String) : Prop where
  sent : sentStamp signed = some stamp
  lines : linesOf out.stringToSign = itemsOf stamp out
  unbroken : ∀ line ∈ itemsOf stamp out, IsUnbroken line
  digits : (canonicalHash out).length = 64 ∧
    ∀ ch ∈ (canonicalHash out).toList, Hex.isLowerHex ch = true
  day : ∃ day place clock, out.scope = day ++ "/" ++ place ∧ stamp = day ++ "T" ++ clock ∧
    '/' ∉ day.toList ∧ 'T' ∉ day.toList ∧ 'T' ∉ clock.toList

lemma stringToSign_eq (now : Instant) (scope : Scope) (canonical : String) :
    stringToSign now scope canonical = String.intercalate "\n" [algorithm, now.stamp, scope.text,
      Hex.encode (Digest.Sha256.digest (utf8 canonical))] := by
  rw [stringToSign, ← String.toList_inj]
  simp [String.toList_append, String.append_assoc]

lemma length_canonicalHash (out : SigningOutput) : (canonicalHash out).length = 64 := by
  have hdigest : (Digest.Sha256.digest (utf8 out.canonicalRequest)).length = 32 := rfl
  rw [canonicalHash, Hex.encode, String.length_ofList, Hex.length_digits, hdigest]

lemma Stages.scope_eq (st : Stages c r credential directive now signed out) :
    out.scope = st.scope.text := congrArg SigningOutput.scope st.out_eq

/-- The scope stays on its line since it is written into the authorization too. -/
lemma isUnbroken_scope (st : Stages c r credential directive now signed out) :
    IsUnbroken out.scope := by
  obtain ⟨-, v, hv, -⟩ := attach_spec st.attached
  have hsent := Http.isUnbroken_of_ofText? hv
  rw [st.scope_eq]
  simp only [authorization, String.append_assoc] at hsent
  exact hsent.of_append_right.of_append_right.of_append_right.of_append_right.of_append_left

lemma Stages.stringToSign_eq (st : Stages c r credential directive now signed out) :
    out.stringToSign = String.intercalate "\n" (itemsOf now.stamp out) := by
  rw [st.out_eq]
  exact Signer.stringToSign_eq now st.scope st.canonical.text

/-- **A signature that came about has a text to sign that can be taken apart.** -/
lemma Stages.isItemized (st : Stages c r credential directive now signed out) :
    IsItemized signed out now.stamp := by
  have hunbroken : ∀ line ∈ itemsOf now.stamp out, IsUnbroken line := by
    have halgorithm : Http.IsVisible algorithm := by decide
    simp only [itemsOf, List.forall_mem_cons]
    exact ⟨halgorithm.isUnbroken, now.isVisible_stamp.isUnbroken, isUnbroken_scope st,
      (Hex.isVisible_encode _).isUnbroken, by simp⟩
  constructor
  case sent =>
    obtain ⟨v, hv, hvalues⟩ := st.exists_values_date
    rw [sentStamp, hvalues]
    exact Http.text?_of_isVisible now.isVisible_stamp hv
  case lines =>
    have hne : itemsOf now.stamp out ≠ [] := List.cons_ne_nil _ _
    rw [st.stringToSign_eq, linesOf_intercalate hne hunbroken]
  case unbroken => exact hunbroken
  case digits => exact ⟨length_canonicalHash out, fun _ => Hex.of_mem_encode (by decide)⟩
  case day =>
    obtain ⟨clock, hstamp, hclock⟩ := now.exists_stamp_eq
    have hscope : out.scope =
        now.dateStamp ++ "/" ++ (c.region ++ "/" ++ c.service ++ "/" ++ Scope.terminator) := by
      rw [st.scope_eq, scope_of_opening st.opened]
      simp only [Scope.text, String.append_assoc]
    exact ⟨now.dateStamp, _, clock, hscope, hstamp, now.not_mem_dateStamp (by decide),
      now.not_mem_dateStamp (by decide), hclock⟩

lemma IsItemized.stringToSign_eq_iff {sent : Request} {out' : SigningOutput} {stamp stamp' : String}
    (h : IsItemized signed out stamp) (h' : IsItemized sent out' stamp') :
    out.stringToSign = out'.stringToSign ↔ sentStamp signed = sentStamp sent ∧
      out.scope = out'.scope ∧ canonicalHash out = canonicalHash out' := by
  rw [h.sent, h'.sent, Option.some.injEq]
  constructor
  · intro htext
    have hitems : itemsOf stamp out = itemsOf stamp' out' := by
      rw [← h.lines, ← h'.lines, htext]
    simp only [itemsOf, List.cons.injEq] at hitems
    obtain ⟨-, hstamp, hscope, hhash, -⟩ := hitems
    exact ⟨hstamp, hscope, hhash⟩
  · rintro ⟨hstamp, hscope, hhash⟩
    calc out.stringToSign
        = String.intercalate "\n" (itemsOf stamp out) := by rw [← h.lines, intercalate_linesOf]
      _ = String.intercalate "\n" (itemsOf stamp' out') := by
          rw [itemsOf, itemsOf, hstamp, hscope, hhash]
      _ = out'.stringToSign := by rw [← h'.lines, intercalate_linesOf]

lemma Stages.stringToSign_eq_of_unsigned {other : Credential} {sent : Request}
    {out' : SigningOutput} (st : Stages c r credential directive now signed out)
    (st' : Stages c r other directive now sent out') (hmode : c.signSecurityToken = false) :
    out.stringToSign = out'.stringToSign := by
  obtain ⟨hscope, hground, hhash⟩ := st.ground_eq st'
  have hdated : addDated c credential now st.ground = addDated c other now st'.ground := by
    rw [hground, addDated, addDated, hmode]
  have hprepared : st.prepared = st'.prepared :=
    Except.ok.inj (st.dated.symm.trans (hdated.trans st'.dated))
  have hcanonical : st.canonical = st'.canonical := by
    have hformed := st.formed
    rw [hprepared, hhash, st'.formed] at hformed
    exact (Except.ok.inj hformed).symm
  calc out.stringToSign
      = stringToSign now st.scope st.canonical.text := congrArg SigningOutput.stringToSign st.out_eq
    _ = stringToSign now st'.scope st'.canonical.text := by rw [hscope, hcanonical]
    _ = out'.stringToSign := (congrArg SigningOutput.stringToSign st'.out_eq).symm

/-- **The text to sign cannot be forged.** Whatever the region, the service and the key are called,
a signature that came about was made of four lines, which name the instant that is sent, its scope
and the canonical form; so what was signed for one of them was not signed for another. -/
theorem isItemized_of_calculate
    (h : (calculate c r credential directive now).result = .ok (signed, out)) :
    (∃ stamp, IsItemized signed out stamp) ∧
      ∀ (d : Config) (s : Request) (other : Credential) (directive' : Option Checksum.Directive)
        (now' : Instant) (sent : Request) (out' : SigningOutput),
        (calculate d s other directive' now').result = .ok (sent, out') →
          (out.stringToSign = out'.stringToSign ↔ sentStamp signed = sentStamp sent ∧
            out.scope = out'.scope ∧ canonicalHash out = canonicalHash out') := by
  obtain ⟨st⟩ := calculate_eq_ok.1 h
  refine ⟨⟨now.stamp, st.isItemized⟩, fun d s other directive' now' sent out' h' => ?_⟩
  obtain ⟨st'⟩ := calculate_eq_ok.1 h'
  exact st.isItemized.stringToSign_eq_iff st'.isItemized

/-- A leap second of a year of five digits, a region and a service with slashes and blanks, and two
key pairs. -/
theorem isItemized_of_leap_second :
    let c := Config.forService "a/b T" "far / east"
    let k₁ := Credential.ofKeys "id/1, x" "key"
    let k₂ := (Credential.ofKeys "id" "other").withSessionToken "token"
    let host : Http.HeaderValue := ⟨utf8 "h", false, by decide⟩
    let r := Request.ofHead ⟨.get, .origin ⟨"/", none⟩, ⟨[(.host, host)]⟩⟩ .unsigned
    let now : Instant := ⟨⟨12016, 12, 31, by decide, by decide⟩, 23, 59, 60, 0, by decide,
      by decide, by decide, by decide⟩
    ∃ s₁ out₁ s₂ out₂, (calculate c r k₁ none now).result = .ok (s₁, out₁) ∧
      (calculate c r k₂ none now).result = .ok (s₂, out₂) ∧
      (∃ stamp, IsItemized s₁ out₁ stamp) ∧ out₁.stringToSign = out₂.stringToSign ∧
      sentStamp s₁ = sentStamp s₂ ∧ out₁.scope = out₂.scope ∧
        canonicalHash out₁ = canonicalHash out₂ := by
  intro c k₁ k₂ host r now
  have hpath : Canonical.path c r = .ok "/" := by cbv
  have opened₁ : opening c k₁ now = .ok ⟨"+120161231", "far / east", "a/b T"⟩ := by cbv
  have opened₂ : opening c k₂ now = .ok ⟨"+120161231", "far / east", "a/b T"⟩ := by cbv
  obtain ⟨s₁, out₁, h₁⟩ := exists_calculate_of_host opened₁ (r := r) (by decide) (by decide) rfl
    hpath (by decide) (by decide) (by decide) (by decide) (by decide)
  obtain ⟨s₂, out₂, h₂⟩ := exists_calculate_of_host opened₂ (r := r) (by decide) (by decide) rfl
    hpath (by decide) (by decide) (by decide) (by decide) (by decide)
  obtain ⟨st₁⟩ := calculate_eq_ok.1 h₁
  obtain ⟨st₂⟩ := calculate_eq_ok.1 h₂
  have htext : out₁.stringToSign = out₂.stringToSign := st₁.stringToSign_eq_of_unsigned st₂ rfl
  obtain ⟨hitems, hsame⟩ := isItemized_of_calculate h₁
  exact ⟨s₁, out₁, s₂, out₂, h₁, h₂, hitems, htext,
    (hsame c r k₂ none now s₂ out₂ h₂).1 htext⟩

end Signer

end SigV4
