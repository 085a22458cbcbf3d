import SigV4.Identity.Credential
import SigV4.Proofs.Text.Boundary

/-!
What is shown of a secret.

The rule counts characters: fewer than twelve are hidden, and of more the first three and the last
three are shown. The cuts are made by octets. So what is shown is the text of the first three and
the last three octets, which may be no text, and then nothing is shown at all; it is what the rule
says exactly where octets and characters count alike.
-/

namespace SigV4

namespace Redaction

open Utf8 (octetsOf)

variable {s t : String} {n : Nat} {cs front back : List Char}

/-- The octets that are shown of a secret, be they a text or not. -/
def shownOctets (s : String) : Octets :=
  let octets := utf8 s
  if octets.length = 0 then utf8 "EMPTY"
  else if octets.length < 12 then utf8 "***"
  else octets.take 3 ++ utf8 "***" ++ octets.drop (octets.length - 3)

/-- What is to be shown of a secret: of twelve characters or more the first and the last three. -/
def masked (s : String) : String :=
  if s = "" then "EMPTY"
  else if s.length < 12 then "***"
  else String.ofList (s.toList.take 3) ++ "***" ++ String.ofList (s.toList.drop (s.length - 3))

/-- Too few octets for their ends to be shown, or characters enough, of which those at the ends have
one octet each. -/
def IsPlain (s : String) : Prop :=
  (utf8 s).length < 12 ∨
    12 ≤ s.length ∧ ∀ c ∈ s.toList.take 3 ++ s.toList.drop (s.length - 3), c.utf8Size = 1

-- The characters are searched in their list: by `Char` being finite they would all be tried.
instance (s : String) : Decidable (IsPlain s) :=
  @instDecidableOr _ _ (Nat.decLt _ _)
    (@instDecidableAnd _ _ (Nat.decLe _ _) (List.decidableBAll _ _))

lemma shownOctets_of_empty (h : (utf8 s).length = 0) : shownOctets s = utf8 "EMPTY" := if_pos h

lemma shownOctets_of_short (hempty : ¬ (utf8 s).length = 0) (h : (utf8 s).length < 12) :
    shownOctets s = utf8 "***" := (if_neg hempty).trans (if_pos h)

lemma shownOctets_of_long (h : 12 ≤ (utf8 s).length) :
    shownOctets s = (utf8 s).take 3 ++ utf8 "***" ++ (utf8 s).drop ((utf8 s).length - 3) :=
  (if_neg (by omega)).trans (if_neg (by omega))

lemma cut?_eq_some_iff :
    cut? n cs = some (front, back) ↔ cs = front ++ back ∧ (octetsOf front).length = n := by
  fun_induction cut? n cs generalizing front with
  | case1 cs =>
    constructor
    · rintro ⟨⟩
      exact ⟨rfl, rfl⟩
    · rintro ⟨rfl, hfront⟩
      have hlength := Utf8.length_le_length_octetsOf front
      obtain rfl : front = [] := List.length_eq_zero_iff.1 (by omega)
      rfl
  | case2 n =>
    refine ⟨nofun, ?_⟩
    rintro ⟨hcs, hfront⟩
    obtain rfl : front = [] := (List.append_eq_nil_iff.1 hcs.symm).1
    cases hfront
  | case3 n c cs hc ih =>
    rw [Option.map_eq_some_iff]
    constructor
    · rintro ⟨⟨front, back⟩, hcut, ⟨⟩⟩
      obtain ⟨rfl, hfront⟩ := ih.1 hcut
      refine ⟨rfl, ?_⟩
      rw [Utf8.octetsOf_cons, List.length_append, String.length_utf8EncodeChar, hfront]
      omega
    · rintro ⟨hcs, hfront⟩
      cases front with
      | nil => cases hfront
      | cons d front =>
        obtain ⟨rfl, rfl⟩ := List.cons.inj hcs
        rw [Utf8.octetsOf_cons, List.length_append, String.length_utf8EncodeChar] at hfront
        exact ⟨(front, back), ih.2 ⟨rfl, by omega⟩, rfl⟩
  | case4 n c cs hc =>
    refine ⟨nofun, ?_⟩
    rintro ⟨hcs, hfront⟩
    cases front with
    | nil => cases hfront
    | cons d front =>
      obtain ⟨rfl, rfl⟩ := List.cons.inj hcs
      rw [Utf8.octetsOf_cons, List.length_append, String.length_utf8EncodeChar] at hfront
      omega

lemma cut?_toList (hn : n ≤ (utf8 s).length) :
    cut? n s.toList = some (front, back) ↔
      octetsOf front = (utf8 s).take n ∧ octetsOf back = (utf8 s).drop n := by
  rw [cut?_eq_some_iff]
  constructor
  · rintro ⟨hs, hfront⟩
    have hutf8 : utf8 s = octetsOf front ++ octetsOf back := by
      rw [← Utf8.octetsOf_append, ← hs]
      rfl
    rw [hutf8, List.take_left' hfront, List.drop_left' hfront]
    exact ⟨rfl, rfl⟩
  · rintro ⟨hfront, hback⟩
    refine ⟨Utf8.octetsOf_injective ?_, ?_⟩
    · rw [Utf8.octetsOf_append, hfront, hback, List.take_append_drop]
      rfl
    · rw [hfront, List.length_take, Nat.min_eq_left hn]

lemma exists_cut?_of_isText_take (hn : n ≤ (utf8 s).length) (h : IsText ((utf8 s).take n)) :
    ∃ p, cut? n s.toList = some p := by
  obtain ⟨front, hfront⟩ := Utf8.isText_iff.1 h
  have hprefix : octetsOf front <+: octetsOf s.toList := hfront ▸ List.take_prefix _ _
  obtain ⟨back, hback⟩ := Utf8.octetsOf_isPrefix_iff.1 hprefix
  refine ⟨(front, back), cut?_eq_some_iff.2 ⟨hback.symm, ?_⟩⟩
  rw [hfront, List.length_take, Nat.min_eq_left hn]

lemma exists_cut?_of_isText_drop (hn : n ≤ (utf8 s).length) (h : IsText ((utf8 s).drop n)) :
    ∃ p, cut? n s.toList = some p := by
  obtain ⟨back, hback⟩ := Utf8.isText_iff.1 h
  have hsuffix : octetsOf back <:+ octetsOf s.toList := hback ▸ List.drop_suffix _ _
  obtain ⟨front, hfront⟩ := Utf8.octetsOf_isSuffix_iff.1 hsuffix
  refine ⟨(front, back), cut?_eq_some_iff.2 ⟨hfront.symm, ?_⟩⟩
  have hlength := congrArg (fun cs => (octetsOf cs).length) hfront
  simp only [Utf8.octetsOf_append, List.length_append, hback, List.length_drop] at hlength
  have hs : (octetsOf s.toList).length = (utf8 s).length := rfl
  omega

lemma isText_stars_iff {xs ys : Octets} :
    IsText (xs ++ utf8 "***" ++ ys) ↔ IsText xs ∧ IsText ys := by
  have hstar : (0x2A : UInt8).toNat < 0x80 := by decide
  have hstars : xs ++ utf8 "***" ++ ys = xs ++ 0x2A :: ([] ++ 0x2A :: ([] ++ 0x2A :: ys)) := by
    rw [List.append_assoc]
    rfl
  have hempty : IsText [] := ⟨"", rfl⟩
  rw [hstars, Utf8.isText_append_cons_iff hstar, Utf8.isText_append_cons_iff hstar,
    Utf8.isText_append_cons_iff hstar]
  tauto

lemma redact?_eq_some_iff_of_long (h : 12 ≤ (utf8 s).length) :
    redact? s = some t ↔
      utf8 t = (utf8 s).take 3 ++ utf8 "***" ++ (utf8 s).drop ((utf8 s).length - 3) := by
  have hredact : redact? s = (cut? 3 s.toList).bind fun start =>
      (cut? ((utf8 s).length - 3) s.toList).bind fun tail =>
        some (String.ofList start.1 ++ "***" ++ String.ofList tail.2) := by
    rw [redact?, ← Utf8.length_utf8]
    dsimp only
    rw [if_neg (by omega), if_neg (by unfold threshold; omega)]
    rfl
  have hshown : ∀ {start tail : List Char × List Char}, cut? 3 s.toList = some start →
      cut? ((utf8 s).length - 3) s.toList = some tail →
      utf8 (String.ofList start.1 ++ "***" ++ String.ofList tail.2) =
        (utf8 s).take 3 ++ utf8 "***" ++ (utf8 s).drop ((utf8 s).length - 3) := by
    intro start tail hstart htail
    rw [utf8_append, utf8_append, utf8_ofList start.1, utf8_ofList tail.2,
      ← ((cut?_toList (by omega)).1 hstart).1, ← ((cut?_toList (by omega)).1 htail).2]
    rfl
  rw [hredact]
  constructor
  · intro hsome
    obtain ⟨start, hstart, hsome⟩ := Option.bind_eq_some_iff.1 hsome
    obtain ⟨tail, htail, hsome⟩ := Option.bind_eq_some_iff.1 hsome
    cases hsome
    exact hshown hstart htail
  · intro ht
    have hparts := isText_stars_iff.1 ⟨t, ht⟩
    obtain ⟨start, hstart⟩ := exists_cut?_of_isText_take (by omega) hparts.1
    obtain ⟨tail, htail⟩ := exists_cut?_of_isText_drop (by omega) hparts.2
    rw [hstart, Option.bind_some, htail, Option.bind_some,
      Utf8.utf8_injective (ht.trans (hshown hstart htail).symm)]

lemma some_eq_some_iff {u : String} : some u = some t ↔ utf8 t = utf8 u := by
  rw [Option.some_inj, Utf8.utf8_injective.eq_iff, eq_comm]

/-- **A secret is shown as the text of these octets**, and not at all if they are none. -/
lemma redact?_eq_some_iff : redact? s = some t ↔ utf8 t = shownOctets s := by
  by_cases hempty : (utf8 s).length = 0
  · have hredact : redact? s = some "EMPTY" := by
      rw [redact?, ← Utf8.length_utf8]
      exact if_pos hempty
    rw [hredact, some_eq_some_iff, shownOctets_of_empty hempty]
  by_cases hshort : (utf8 s).length < 12
  · have hredact : redact? s = some "***" := by
      rw [redact?, ← Utf8.length_utf8]
      exact (if_neg hempty).trans (if_pos hshort)
    rw [hredact, some_eq_some_iff, shownOctets_of_short hempty hshort]
  · rw [redact?_eq_some_iff_of_long (by omega), shownOctets_of_long (by omega)]

lemma isText_shownOctets_iff : IsText (shownOctets s) ↔ (12 ≤ (utf8 s).length →
    IsText ((utf8 s).take 3) ∧ IsText ((utf8 s).drop ((utf8 s).length - 3))) := by
  by_cases hempty : (utf8 s).length = 0
  · exact iff_of_true ⟨_, (shownOctets_of_empty hempty).symm⟩ fun h => absurd h (by omega)
  by_cases hshort : (utf8 s).length < 12
  · exact iff_of_true ⟨_, (shownOctets_of_short hempty hshort).symm⟩ fun h => absurd h (by omega)
  · have hlong : 12 ≤ (utf8 s).length := by omega
    rw [shownOctets_of_long hlong, isText_stars_iff]
    exact ⟨fun h _ => h, fun h => h hlong⟩

lemma redact?_eq_none_iff : redact? s = none ↔ 12 ≤ (utf8 s).length ∧
    ¬ (IsText ((utf8 s).take 3) ∧ IsText ((utf8 s).drop ((utf8 s).length - 3))) := by
  have hnone : redact? s = none ↔ ¬ IsText (shownOctets s) := by
    rw [Option.eq_none_iff_forall_ne_some, IsText, not_exists]
    exact forall_congr' fun t => not_congr redact?_eq_some_iff
  rw [hnone, isText_shownOctets_iff, Classical.not_imp]

lemma redact?_congr {s' : String} (h : shownOctets s = shownOctets s') :
    redact? s = redact? s' := by
  ext t
  rw [redact?_eq_some_iff, redact?_eq_some_iff, h]

lemma utf8_masked_eq_iff_of_long (h : 12 ≤ (utf8 s).length) (hcount : 12 ≤ s.length) :
    utf8 (masked s) = shownOctets s ↔
      ∀ c ∈ s.toList.take 3 ++ s.toList.drop (s.length - 3), c.utf8Size = 1 := by
  obtain ⟨front, hfront⟩ : ∃ cs, s.toList.take 3 = cs := ⟨_, rfl⟩
  obtain ⟨back, hback⟩ : ∃ cs, s.toList.drop (s.length - 3) = cs := ⟨_, rfl⟩
  have hs : s.toList.length = s.length := String.length_toList
  have hfront₃ : front.length = 3 := by rw [← hfront, List.length_take]; omega
  have hback₃ : back.length = 3 := by rw [← hback, List.length_drop]; omega
  have hprefix : octetsOf front <+: utf8 s :=
    Utf8.octetsOf_isPrefix_iff.2 (hfront ▸ List.take_prefix _ _)
  have hsuffix : octetsOf back <:+ utf8 s :=
    Utf8.octetsOf_isSuffix_iff.2 (hback ▸ List.drop_suffix _ _)
  have hmasked : utf8 (masked s) = octetsOf front ++ utf8 "***" ++ octetsOf back := by
    have hne : s ≠ "" := by rintro rfl; exact absurd hcount (by decide)
    rw [masked, if_neg hne, if_neg (by omega), hfront, hback, utf8_append, utf8_append,
      utf8_ofList front, utf8_ofList back]
    rfl
  rw [hmasked, shownOctets_of_long h, hfront, hback, ← Utf8.length_octetsOf_eq_iff,
    Utf8.octetsOf_append, List.length_append, List.length_append, hfront₃, hback₃]
  have hfront_le := Utf8.length_le_length_octetsOf front
  have hback_le := Utf8.length_le_length_octetsOf back
  constructor
  · intro heq
    have hlength := congrArg List.length heq
    simp only [List.length_append, List.length_take, List.length_drop] at hlength
    omega
  · intro hlength
    have hfront_eq := List.prefix_iff_eq_take.1 hprefix
    have hback_eq := List.suffix_iff_eq_drop.1 hsuffix
    rw [show (octetsOf front).length = 3 by omega] at hfront_eq
    rw [show (octetsOf back).length = 3 by omega] at hback_eq
    rw [← hfront_eq, ← hback_eq]

/-- **Octets are shown by the rule for characters** exactly if there are few of them, or enough
characters, of which those that are shown have one octet each. -/
lemma utf8_masked_eq_iff : utf8 (masked s) = shownOctets s ↔ IsPlain s := by
  have hcount : s.length ≤ (utf8 s).length := Utf8.length_le_length_octetsOf s.toList
  by_cases hempty : (utf8 s).length = 0
  · have hs : s = "" := utf8_eq_nil.1 (List.length_eq_zero_iff.1 hempty)
    exact iff_of_true (by rw [masked, if_pos hs, shownOctets_of_empty hempty])
      (.inl (by omega))
  have hs : s ≠ "" := fun hs => hempty (by rw [hs]; rfl)
  by_cases hshort : (utf8 s).length < 12
  · exact iff_of_true
      (by rw [masked, if_neg hs, if_pos (by omega), shownOctets_of_short hempty hshort])
      (.inl hshort)
  by_cases hfew : s.length < 12
  · refine iff_of_false (fun h => ?_) (by unfold IsPlain; omega)
    rw [masked, if_neg hs, if_pos hfew, shownOctets_of_long (by omega)] at h
    have hlength := congrArg List.length h
    have hstars : (utf8 "***").length = 3 := by decide
    simp only [List.length_append, List.length_take, List.length_drop, hstars] at hlength
    omega
  · rw [utf8_masked_eq_iff_of_long (by omega) (by omega), IsPlain]
    constructor
    · exact fun h => .inr ⟨by omega, h⟩
    · rintro (h | h)
      · omega
      · exact h.2

lemma length_shownOctets_le (s : String) : (shownOctets s).length ≤ 9 := by
  unfold shownOctets
  have hempty : (utf8 "EMPTY").length = 5 := by decide
  have hstars : (utf8 "***").length = 3 := by decide
  dsimp only
  split_ifs
  · omega
  · omega
  · simp only [List.length_append, List.length_take, List.length_drop, hstars]
    omega

lemma length_le_of_redact? (h : redact? s = some t) : t.length ≤ 9 :=
  calc t.length ≤ (utf8 t).length := Utf8.length_le_length_octetsOf t.toList
    _ = (shownOctets s).length := by rw [redact?_eq_some_iff.1 h]
    _ ≤ 9 := length_shownOctets_le s

lemma length_masked_le (s : String) : (masked s).length ≤ 9 := by
  unfold masked
  split_ifs
  · decide
  · decide
  · have hs : s.toList.length = s.length := String.length_toList
    have hstars : "***".length = 3 := by decide
    simp only [String.length_append, String.length_ofList, List.length_take, List.length_drop,
      hstars]
    omega

end Redaction

namespace Credential

open Redaction (redact? shownOctets masked IsPlain)

variable {c d : Credential} {t : String} {f g : String → String}

/-- The texts of a key pair that are not to be told. -/
def secrets (c : Credential) : List String :=
  [c.accessKeyId, c.secretAccessKey, c.sessionToken.getD ""]

/-- What is shown of the end of a key pair. -/
def expiry (c : Credential) : String :=
  match c.expiresAt with
  | some t => "Some(" ++ t.extended ++ ")"
  | none => "None"

/-- A key pair as it is shown, with each secret written in a form of its own. -/
def display (c : Credential) (form : String → String) : String :=
  "Credential \x7b access_key_id: " ++ form c.accessKeyId ++ ", secret_access_key: " ++
    form c.secretAccessKey ++ ", session_token: " ++ form (c.sessionToken.getD "") ++
    ", expires_in: " ++ c.expiry ++ " \x7d"

lemma shown?_eq_bind (c : Credential) : c.shown? =
    (redact? c.accessKeyId).bind fun id => (redact? c.secretAccessKey).bind fun secret =>
      (redact? (c.sessionToken.getD "")).bind fun token =>
        some ("Credential \x7b access_key_id: " ++ id ++ ", secret_access_key: " ++ secret ++
          ", session_token: " ++ token ++ ", expires_in: " ++ c.expiry ++ " \x7d") := rfl

lemma shown?_eq_some_iff :
    c.shown? = some t ↔ ∃ f, (∀ s ∈ c.secrets, redact? s = some (f s)) ∧ t = c.display f := by
  simp only [secrets, List.forall_mem_cons, List.not_mem_nil, false_implies, implies_true, and_true]
  rw [shown?_eq_bind]
  constructor
  · intro h
    obtain ⟨id, hid, h⟩ := Option.bind_eq_some_iff.1 h
    obtain ⟨secret, hsecret, h⟩ := Option.bind_eq_some_iff.1 h
    obtain ⟨token, htoken, h⟩ := Option.bind_eq_some_iff.1 h
    refine ⟨fun s => (redact? s).getD "", by simp [hid, hsecret, htoken], ?_⟩
    rw [← Option.some.inj h]
    unfold display
    simp only [hid, hsecret, htoken, Option.getD_some]
  · rintro ⟨f, ⟨hid, hsecret, htoken⟩, rfl⟩
    rw [hid, hsecret, htoken]
    rfl

/-- The labels between the secrets are longer than what is shown of one, so it can be read off. -/
lemma eq_of_display_eq (hf : ∀ s ∈ c.secrets, (f s).length ≤ 9)
    (hg : ∀ s ∈ c.secrets, (g s).length ≤ 9) (h : c.display f = c.display g) :
    ∀ s ∈ c.secrets, f s = g s := by
  simp only [secrets, List.forall_mem_cons, List.not_mem_nil, false_implies, implies_true,
    and_true] at hf hg ⊢
  obtain ⟨hid, hsecret, htoken⟩ := hf
  obtain ⟨hid', hsecret', htoken'⟩ := hg
  unfold display at h
  simp only [String.append_assoc] at h
  have hrest := (String.append_right_inj _).1 h
  obtain ⟨hid, hrest⟩ := Joined.eq_and_eq_of_label_append ", secret_access_key: " rfl
    (by decide) (Nat.le_trans hid (by decide)) (Nat.le_trans hid' (by decide)) hrest
  obtain ⟨hsecret, hrest⟩ := Joined.eq_and_eq_of_label_append ", session_token: " rfl
    (by decide) (Nat.le_trans hsecret (by decide)) (Nat.le_trans hsecret' (by decide)) hrest
  obtain ⟨htoken, -⟩ := Joined.eq_and_eq_of_label_append ", expires_in: " rfl
    (by decide) (Nat.le_trans htoken (by decide)) (Nat.le_trans htoken' (by decide)) hrest
  exact ⟨hid, hsecret, htoken⟩

lemma shown?_congr (hexpiry : c.expiresAt = d.expiresAt)
    (h : c.secrets.map shownOctets = d.secrets.map shownOctets) : c.shown? = d.shown? := by
  simp only [secrets, List.map_cons, List.map_nil, List.cons.injEq, and_true] at h
  rw [shown?_eq_bind, shown?_eq_bind, Redaction.redact?_congr h.1, Redaction.redact?_congr h.2.1,
    Redaction.redact?_congr h.2.2, expiry, expiry, hexpiry]

lemma shown?_eq_none_iff : c.shown? = none ↔ ∃ s ∈ c.secrets, redact? s = none := by
  rw [shown?_eq_bind]
  simp only [secrets, List.exists_mem_cons_iff, List.not_mem_nil, false_and, exists_false, or_false]
  cases hid : redact? c.accessKeyId with
  | none => simp
  | some id =>
    cases hsecret : redact? c.secretAccessKey with
    | none => simp
    | some secret =>
      cases htoken : redact? (c.sessionToken.getD "") with
      | none => simp
      | some token => simp

lemma shown?_eq_display_masked_iff :
    c.shown? = some (c.display masked) ↔ ∀ s ∈ c.secrets, IsPlain s := by
  rw [shown?_eq_some_iff]
  constructor
  · rintro ⟨f, hf, h⟩ s hs
    have heq := eq_of_display_eq (fun s _ => Redaction.length_masked_le s)
      (fun s hs => Redaction.length_le_of_redact? (hf s hs)) h s hs
    rw [← Redaction.utf8_masked_eq_iff, ← Redaction.redact?_eq_some_iff, heq]
    exact hf s hs
  · intro h
    refine ⟨masked, fun s hs => ?_, rfl⟩
    rw [Redaction.redact?_eq_some_iff, Redaction.utf8_masked_eq_iff]
    exact h s hs

/-- **What is shown of a key pair.** Each secret is shown as the text of its octets that may be
told, six at most. Nothing is shown exactly if a cut goes through a character of a secret. What is
shown follows the rule for characters exactly if every secret is plain. Nothing but the octets that
may be told, and the end of the key pair, has a part in it. -/
theorem shown_masked_iff_isPlain (c : Credential) :
    (∀ t, c.shown? = some t ↔
      ∃ form, (∀ s ∈ c.secrets, utf8 (form s) = shownOctets s) ∧ t = c.display form) ∧
    (c.shown? = none ↔ ∃ s ∈ c.secrets, 12 ≤ (utf8 s).length ∧
      ¬ (IsText ((utf8 s).take 3) ∧ IsText ((utf8 s).drop ((utf8 s).length - 3)))) ∧
    (c.shown? = some (c.display masked) ↔ ∀ s ∈ c.secrets, IsPlain s) ∧
    ∀ d : Credential, c.expiresAt = d.expiresAt →
      c.secrets.map shownOctets = d.secrets.map shownOctets → c.shown? = d.shown? := by
  refine ⟨fun t => ?_, ?_, shown?_eq_display_masked_iff, fun d => shown?_congr⟩
  · rw [shown?_eq_some_iff]
    simp only [Redaction.redact?_eq_some_iff]
  · rw [shown?_eq_none_iff]
    simp only [Redaction.redact?_eq_none_iff]

/-- Two key pairs that differ in the middle of their secrets, where characters may have several
octets. -/
theorem shown_masked_of_same_ends :
    let c := (ofKeys "AKIDEXAMPLE1" "wJalrXUtnFEMIéKEY").withSessionToken "token"
    let d := (ofKeys "AKI€€LE1" "wJa0123456789KEY").withSessionToken "€€€"
    let shown := "Credential \x7b access_key_id: AKI***LE1, secret_access_key: wJa***KEY, " ++
      "session_token: ***, expires_in: None \x7d"
    c.secrets.map shownOctets = d.secrets.map shownOctets ∧ (∀ s ∈ c.secrets, IsPlain s) ∧
      c.shown? = some shown ∧ d.shown? = some shown := by
  intro c d shown
  have hsame : c.secrets.map shownOctets = d.secrets.map shownOctets := by decide
  have hplain : ∀ s ∈ c.secrets, IsPlain s := by decide
  have hdisplay : c.display masked = shown := by decide
  obtain ⟨-, -, hmasked, hcongr⟩ := shown_masked_iff_isPlain c
  have hc : c.shown? = some shown := by rw [hmasked.2 hplain, hdisplay]
  exact ⟨hsame, hplain, hc, (hcongr d rfl hsame).symm.trans hc⟩

/-- A cut through a character, and four characters of three octets each: of one key pair nothing is
shown, and of the other one two characters that are to be hidden. -/
theorem shown_ne_masked_of_several_octets :
    let c := ofKeys "abécdefghijkl" "key"
    let d := ofKeys "€€€€" "key"
    let rest := ", secret_access_key: ***, session_token: EMPTY, expires_in: None \x7d"
    c.shown? = none ∧ c.display masked = "Credential \x7b access_key_id: abé***jkl" ++ rest ∧
      d.shown? = some ("Credential \x7b access_key_id: €***€" ++ rest) ∧
      d.display masked = "Credential \x7b access_key_id: ***" ++ rest := by
  decide

end Credential

end SigV4
