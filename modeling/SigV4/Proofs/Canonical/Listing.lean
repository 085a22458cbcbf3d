import Mathlib
import SigV4.Proofs.Canonical.Headers
import SigV4.Proofs.Canonical.Words
import SigV4.Proofs.Http.Visible
import SigV4.Proofs.Request.SameBut

/-!
What the canonical headers list.

They are the one list that ascends by name, has a line for each name that is not left out, and in
it the folds of the values joined by commas. A line can be sent as it stands, and a request that
sends the lines of another one has the same canonical headers.
-/

namespace SigV4.Canonical

open Http (HeaderName HeaderValue)

variable {c : Config} {r s : Request} {lines : List (String × String)} {vs : List HeaderValue}

/-- The text joins the folds of the values, all of which read as text. -/
def IsJoinOf (vs : List HeaderValue) (t : String) : Prop :=
  ∃ folds : List String, vs.Forall₂ (fun v f => ∃ s, v.text? = some s ∧ IsFoldOf s f) folds ∧
    t = String.intercalate "," folds

/-- The lines of the names that are not left out, one a name and in the order of their octets. -/
structure IsListingOf (c : Config) (r : Request) (lines : List (String × String)) : Prop where
  ascending : lines.Pairwise fun p q => utf8 p.1 < utf8 q.1
  names_iff : ∀ name, name ∈ lines.map Prod.fst ↔
    ∃ n ∈ r.headers.names, n.text = name ∧ c.isExcluded name = false
  values : ∀ n : HeaderName, ∀ line ∈ lines, n.text = line.1 →
    IsJoinOf (r.headers.values n) line.2

/-- Puts each line into the request, in place of what stands under its name. -/
def carry (lines : List (String × String)) (r : Request) : Except Error Request :=
  lines.foldlM (fun r line => r.insertHeader line.1 line.2) r

/-! ### The lines -/

lemma isJoinOf_iff {t : String} :
    IsJoinOf vs t ↔ (∀ v ∈ vs, v.isReadable = true) ∧ t = joined vs := by
  have hfold : ∀ v : HeaderValue, ∀ f, (∃ s, v.text? = some s ∧ IsFoldOf s f) ↔
      v.isReadable = true ∧ f = fold (asciiText v.octets) := by
    intro v f
    have htext : v.text? = if v.isReadable = true then some (asciiText v.octets) else none := rfl
    simp only [htext, isFoldOf_iff]
    split <;> simp_all
  have hfolds : ∀ folds : List String,
      vs.Forall₂ (fun v f => ∃ s, v.text? = some s ∧ IsFoldOf s f) folds ↔
        (∀ v ∈ vs, v.isReadable = true) ∧ folds = vs.map fun v => fold (asciiText v.octets) := by
    induction vs with
    | nil => simp
    | cons v vs ih =>
      intro folds
      cases folds with
      | nil => simp
      | cons f folds =>
        rw [List.forall₂_cons, hfold, ih, List.forall_mem_cons, List.map_cons, List.cons.injEq]
        tauto
  constructor
  · rintro ⟨folds, h, rfl⟩
    obtain ⟨hread, rfl⟩ := (hfolds folds).1 h
    exact ⟨hread, rfl⟩
  · rintro ⟨hread, rfl⟩
    exact ⟨_, (hfolds _).2 ⟨hread, rfl⟩, rfl⟩

lemma isTidy_joined (vs : List HeaderValue) : IsTidy (joined vs).toList := by
  rw [joined, String.toList_intercalate]
  refine isTidy_intercalate_of_mark (by decide) fun piece hpiece => ?_
  obtain ⟨text, htext, rfl⟩ := List.mem_map.1 hpiece
  obtain ⟨v, -, rfl⟩ := List.mem_map.1 htext
  exact (isFoldOf_iff.2 rfl).isTidy

lemma isVisible_joined (h : ∀ v ∈ vs, v.isReadable = true) : Http.IsVisible (joined vs) := by
  intro ch hch
  cases hblank : Ascii.isBlank ch with
  | true =>
    obtain ⟨u, v, huv⟩ := List.append_of_mem hch
    obtain ⟨rfl, -, -⟩ := isTidy_joined vs u v ch huv hblank
    decide
  | false =>
    rw [joined, String.toList_intercalate] at hch
    rcases Joined.mem_intercalate hch with hch | ⟨piece, hpiece, hch⟩
    · obtain rfl := List.mem_singleton.1 hch
      decide
    obtain ⟨text, htext, rfl⟩ := List.mem_map.1 hpiece
    obtain ⟨v, hv, rfl⟩ := List.mem_map.1 htext
    rcases mem_fold hch with rfl | hch
    · decide
    · -- The only character of a value without a shape is the tab, which is a blank.
      have htext : v.text? = some (asciiText v.octets) := if_pos (h v hv)
      rcases (Bool.or_eq_true _ _).mp (Http.isTextChar_of_text? htext hch) with htab | hshown
      · rw [eq_of_beq htab] at hblank
        cases hblank
      · exact hshown

lemma isListingOf_of_headers (h : headers c r = .ok lines) : IsListingOf c r lines where
  ascending := by
    refine (List.pairwise_map.1 (pairwise_headers_fst h)).imp_of_mem ?_
    intro p q hp hq hlt
    obtain ⟨m, -, rfl, -⟩ := mem_headers h hp
    obtain ⟨n, -, rfl, -⟩ := mem_headers h hq
    exact HeaderName.utf8_text_lt hlt
  names_iff name := by
    constructor
    · intro hname
      obtain ⟨line, hline, rfl⟩ := List.mem_map.1 hname
      obtain ⟨n, hn, rfl, -⟩ := mem_headers h hline
      rw [signedNames, List.mem_filter] at hn
      have hkept : c.isExcluded n.text = false := by simpa using hn.2
      exact ⟨n, hn.1, rfl, hkept⟩
    · rintro ⟨n, hn, rfl, hkept⟩
      rw [mem_headers_fst h, signedNames, List.mem_filter]
      exact ⟨hn, by simpa using hkept⟩
  values n line hline hname := by
    obtain ⟨m, hm, rfl, hread⟩ := mem_headers h hline
    obtain rfl : n = m := HeaderName.ext_text hname
    exact isJoinOf_iff.2 ⟨hread, rfl⟩

lemma IsListingOf.exists_name (h : IsListingOf c r lines) {line : String × String}
    (hline : line ∈ lines) : ∃ n : HeaderName, n.text = line.1 := by
  obtain ⟨n, -, hn, -⟩ := (h.names_iff line.1).1 (List.mem_map_of_mem hline)
  exact ⟨n, hn⟩

lemma IsListingOf.unique {lines' : List (String × String)} (h : IsListingOf c r lines)
    (h' : IsListingOf c r lines') : lines = lines' := by
  have hsub : ∀ {lines lines'}, IsListingOf c r lines → IsListingOf c r lines' →
      ∀ line ∈ lines, line ∈ lines' := by
    intro lines lines' h h' line hline
    have hname := (h'.names_iff line.1).2 ((h.names_iff line.1).1 (List.mem_map_of_mem hline))
    obtain ⟨other, hother, heq⟩ := List.mem_map.1 hname
    obtain ⟨n, hn⟩ := h.exists_name hline
    have hvalue := (isJoinOf_iff.1 (h.values n line hline hn)).2
    have hvalue' := (isJoinOf_iff.1 (h'.values n other hother (hn.trans heq.symm))).2
    rwa [show line = other from Prod.ext heq.symm (hvalue.trans hvalue'.symm)]
  have : Std.Antisymm fun p q : String × String => utf8 p.1 < utf8 q.1 :=
    ⟨fun p q hpq hqp => absurd hqp (List.lt_asymm hpq)⟩
  have : Std.Irrefl fun p q : String × String => utf8 p.1 < utf8 q.1 :=
    ⟨fun p => List.lt_irrefl (utf8 p.1)⟩
  exact h.ascending.eq_of_mem_iff h'.ascending fun line => ⟨hsub h h' line, hsub h' h line⟩

/-- **The canonical headers are the listing of the request.** -/
lemma headers_eq_ok_iff : headers c r = .ok lines ↔ IsListingOf c r lines := by
  refine ⟨isListingOf_of_headers, fun h => ?_⟩
  have hread : ∀ n ∈ signedNames c r, ∀ v ∈ r.headers.values n, v.isReadable = true := by
    intro n hn
    rw [signedNames, List.mem_filter] at hn
    have hname := (h.names_iff n.text).2 ⟨n, hn.1, rfl, by simpa using hn.2⟩
    obtain ⟨line, hline, heq⟩ := List.mem_map.1 hname
    exact (isJoinOf_iff.1 (h.values n line hline heq.symm)).1
  have hheaders := headers_eq c r
  rw [if_pos hread] at hheaders
  rw [hheaders, (isListingOf_of_headers hheaders).unique h]

/-! ### Lines sent as they stand -/

/-- **Lines are carried one by one**: each name gets the one value of its line, and what has no line
stays. -/
lemma exists_carry (hnames : (lines.map Prod.fst).Nodup)
    (hlines : ∀ line ∈ lines, (∃ n : HeaderName, n.text = line.1) ∧ Http.IsVisible line.2)
    (r : Request) :
    ∃ s, carry lines r = .ok s ∧
      (∀ n : HeaderName, n.text ∉ lines.map Prod.fst → s.headers.values n = r.headers.values n) ∧
      ∀ n : HeaderName, ∀ line ∈ lines, n.text = line.1 →
        ∃ v, HeaderValue.ofText? line.2 = some v ∧ s.headers.values n = [v] := by
  induction lines generalizing r with
  | nil => exact ⟨r, rfl, fun _ _ => rfl, by simp⟩
  | cons line lines ih =>
    obtain ⟨⟨⟨m, hm⟩, hvisible⟩, hlines⟩ := List.forall_mem_cons.1 hlines
    rw [List.map_cons, List.nodup_cons] at hnames
    obtain ⟨v, hv⟩ := Http.exists_ofText?_of_isVisible hvisible
    have hput : r.insertHeader line.1 line.2 = .ok { r with headers := r.headers.insert m v } := by
      rw [Request.insertHeader, Request.readName, ← hm, HeaderName.ofText?_text]
      exact Request.putText_eq_ok.2 ⟨v, hv, rfl⟩
    obtain ⟨s, hs, hrest, hcarried⟩ := ih hnames.2 hlines { r with headers := r.headers.insert m v }
    refine ⟨s, ?_, fun n hn => ?_, fun n other hother hn => ?_⟩
    · rw [carry, List.foldlM_cons, hput]
      exact hs
    · rw [List.map_cons, List.mem_cons, not_or] at hn
      rw [hrest n hn.2]
      exact Http.Headers.values_insert_of_ne _ _ _ _ fun hmn => hn.1 (hmn ▸ hm)
    · rcases List.mem_cons.1 hother with rfl | hother
      · obtain rfl : n = m := HeaderName.ext_text (hn.trans hm.symm)
        refine ⟨v, hv, ?_⟩
        rw [hrest n (hn ▸ hnames.1)]
        exact Http.Headers.values_insert_self _ _ _
      · exact hcarried n other hother hn

lemma isJoinOf_singleton {v : HeaderValue} {t : String} (hv : HeaderValue.ofText? t = some v)
    (hvisible : Http.IsVisible t) (htidy : IsTidy t.toList) : IsJoinOf [v] t :=
  ⟨[t], .cons ⟨t, Http.text?_of_isVisible hvisible hv, htidy.isFoldOf_self⟩ .nil,
    (String.intercalate_singleton).symm⟩

/-- **A request that sends the canonical headers of another one has the same**, if it has no other
name that is signed. -/
lemma exists_headers_carry (h : headers c r = .ok lines) {base : Request}
    (hbase : ∀ n ∈ signedNames c base, n ∈ signedNames c r) :
    ∃ s, carry lines base = .ok s ∧ headers c s = .ok lines := by
  have hlisting := isListingOf_of_headers h
  have hvalue : ∀ line ∈ lines, Http.IsVisible line.2 ∧ IsTidy line.2.toList := by
    intro line hline
    obtain ⟨n, -, rfl, hread⟩ := mem_headers h hline
    exact ⟨isVisible_joined hread, isTidy_joined _⟩
  obtain ⟨s, hs, hrest, hcarried⟩ := exists_carry
    ((pairwise_headers_fst h).imp fun hlt => ne_of_lt hlt)
    (fun line hline => ⟨hlisting.exists_name hline, (hvalue line hline).1⟩) base
  refine ⟨s, hs, headers_eq_ok_iff.2 ⟨hlisting.ascending, fun name => ?_, ?_⟩⟩
  · constructor
    · intro hname
      obtain ⟨n, -, rfl, hkept⟩ := (hlisting.names_iff name).1 hname
      obtain ⟨line, hline, heq⟩ := List.mem_map.1 hname
      obtain ⟨v, -, hv⟩ := hcarried n line hline heq.symm
      exact ⟨n, (Http.Headers.mem_names _ _).2 (by simp [hv]), rfl, hkept⟩
    · rintro ⟨n, hn, rfl, hkept⟩
      -- A name without a line has kept its values, so it is one that the other request signs.
      by_contra hname
      rw [Http.Headers.mem_names, hrest n hname, ← Http.Headers.mem_names] at hn
      have hsigned : n ∈ signedNames c base := List.mem_filter.2 ⟨hn, by simpa using hkept⟩
      exact hname ((mem_headers_fst h n).2 (hbase n hsigned))
  · intro n line hline hn
    obtain ⟨v, hv, hvalues⟩ := hcarried n line hline hn
    rw [hvalues]
    exact isJoinOf_singleton hv (hvalue line hline).1 (hvalue line hline).2

lemma isReadable_eq_false_iff (v : HeaderValue) :
    v.isReadable = false ↔ ∃ b ∈ v.octets, ¬ (b = 0x09 ∨ 0x20 ≤ b ∧ b ≤ 0x7E) := by
  have hoctet : ∀ b : UInt8, Http.isVisibleOctet b = true ↔ b = 0x09 ∨ 0x20 ≤ b ∧ b ≤ 0x7E := by
    intro b
    rw [← UInt8.toNat_inj, UInt8.le_iff_toNat_le, UInt8.le_iff_toNat_le]
    simp [Http.isVisibleOctet]
    omega
  simp only [HeaderValue.isReadable, List.all_eq_false, hoctet]

lemma headers_eq_error_iff :
    (∃ e, headers c r = .error e) ↔ ∃ n ∈ r.headers.names, c.isExcluded n.text = false ∧
      ∃ v ∈ r.headers.values n, v.isReadable = false := by
  rw [headers_eq]
  split
  · next hread =>
    refine ⟨nofun, ?_⟩
    rintro ⟨n, hn, hkept, v, hv, hunread⟩
    have := hread n (List.mem_filter.2 ⟨hn, by simpa using hkept⟩) v hv
    rw [hunread] at this
    cases this
  · next hread =>
    refine ⟨fun _ => ?_, fun _ => ⟨_, rfl⟩⟩
    push Not at hread
    obtain ⟨n, hn, v, hv, hunread⟩ := hread
    rw [signedNames, List.mem_filter] at hn
    exact ⟨n, hn.1, by simpa using hn.2, v, hv, by simpa using hunread⟩

/-- **What the canonical headers are.** They are the listing of the request, folded values have one
form only and hold neither tabs nor line breaks, and a request that sends the lines as they stand
is listed alike. There is no listing exactly if a value that is to be signed does not read as text,
which is a fault of the request. -/
theorem headers_listing (c : Config) (r : Request) :
    (∀ lines, headers c r = .ok lines ↔ IsListingOf c r lines) ∧
      (∀ s, ∃! t, IsFoldOf s t) ∧
      (∀ lines, headers c r = .ok lines → (∀ line ∈ lines, Http.IsVisible line.2) ∧
        ∀ base : Request, (∀ n ∈ signedNames c base, n ∈ signedNames c r) →
          ∃ s, carry lines base = .ok s ∧ headers c s = .ok lines) ∧
      (∀ e, headers c r = .error e → e.kind = .requestInvalid) ∧
      ((∃ e, headers c r = .error e) ↔ ∃ n ∈ r.headers.names, c.isExcluded n.text = false ∧
        ∃ v ∈ r.headers.values n, ∃ b ∈ v.octets, ¬ (b = 0x09 ∨ 0x20 ≤ b ∧ b ≤ 0x7E)) := by
  refine ⟨fun _ => headers_eq_ok_iff, fun s => ?_, fun lines h => ⟨fun line hline => ?_, ?_⟩,
    ?_, ?_⟩
  · exact ⟨fold s, isFoldOf_iff.2 rfl, fun t ht => isFoldOf_iff.1 ht⟩
  · obtain ⟨n, -, rfl, hread⟩ := mem_headers h hline
    exact isVisible_joined hread
  · exact fun base hbase => exists_headers_carry h hbase
  · intro e he
    rw [headers_eq] at he
    split at he <;> cases he
    rfl
  · simp only [headers_eq_error_iff, isReadable_eq_false_iff]

/-- Names out of order, a value of blanks only, quotes, tabs, and a value that cannot be read under
a name that is left out. -/
theorem headers_listing_of_blanks :
    let c := Config.forService "demo" "us-east-1"
    let note : HeaderName := ⟨"x-note", by decide⟩
    let agent : HeaderName := ⟨"user-agent", by decide⟩
    let r := Request.ofHead ⟨.get, .origin ⟨"/", none⟩,
      ⟨[(note, ⟨utf8 " \t", false, by decide⟩), (agent, ⟨[0xFF], false, by decide⟩),
        (note, ⟨utf8 "\ta  \"b \t c\" ", true, by decide⟩), (.host, ⟨utf8 "h", false, by decide⟩),
        (note, ⟨utf8 "", false, by decide⟩)]⟩⟩ .unsigned
    let lines := [("host", "h"), ("x-note", ",a \"b c\",")]
    headers c r = .ok lines ∧ IsListingOf c r lines ∧
      ∃ s, carry lines r = .ok s ∧ headers c s = .ok lines := by
  intro c note agent r lines
  have hsigned : signedNames c r = [note, .host] := by cbv
  have hnote : lineOf r note = ("x-note", ",a \"b c\",") := by cbv
  have hhost : lineOf r .host = ("host", "h") := by cbv
  have h : headers c r = .ok lines := by
    have hsorted : [lineOf r note, lineOf r .host].mergeSort pairLE = lines := by
      rw [hnote, hhost, sort_eq_sort_iff.2 (List.Perm.swap _ _ _)]
      exact List.mergeSort_of_pairwise (by decide)
    rw [headers_eq, hsigned, if_pos (by decide)]
    exact congrArg Except.ok hsorted
  obtain ⟨hlisting, -, hcarry, -, -⟩ := headers_listing c r
  exact ⟨h, (hlisting lines).1 h, (hcarry lines h).2 r fun _ hn => hn⟩

end SigV4.Canonical
