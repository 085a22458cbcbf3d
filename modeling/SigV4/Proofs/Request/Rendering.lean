import Mathlib
import SigV4.Proofs.Http.Uri
import SigV4.Proofs.Text.Ascii
import SigV4.Proofs.Text.Coded
import SigV4.Request.Basic

/-!
Targets that are written and read back.

A pair is written with its name and value coded, so neither holds a mark of the query, and the
piece it is written as is read as that pair again. A pair that leaves no trace is not written at
all, not even as an empty piece. The first question mark of a target is then the one that was
written after the path, so path, authority and query are read as they were.
-/

namespace SigV4

open Http (Authority Head Headers Method PathAndQuery Scheme Uri)

namespace Query

/-- The pairs of a query that leave a trace when they are written. -/
def traced (ps : List QueryPair) : List QueryPair := ps.filter fun p => !isVoid p

/-- A query as it is written, without its question mark, if any pair of it leaves a trace. -/
def body (ps : List QueryPair) : Option String :=
  if traced ps = [] then none else some (String.intercalate "&" ((traced ps).map write))

lemma render_eq (ps : List QueryPair) : render ps = (body ps).elim "" ("?" ++ ·) := by
  have htraced : (ps.filter fun p => !isVoid p) = traced ps := rfl
  unfold render body
  rw [htraced]
  cases traced ps with
  | nil => rfl
  | cons p qs => rfl

lemma isVoid_iff {p : QueryPair} : isVoid p = true ↔ p = ("", none) := by
  obtain ⟨name, value⟩ := p
  simp [isVoid]

lemma ofList_drop_render (ps : List QueryPair) :
    String.ofList ((render ps).toList.drop 1) = (body ps).getD "" := by
  rw [render_eq]
  cases body ps with
  | none => rfl
  | some text =>
    calc String.ofList (("?" ++ text).toList.drop 1)
        = String.ofList text.toList := by rw [String.toList_append]; rfl
      _ = text := String.ofList_toList

/-! ### Pairs -/

lemma decodeText_encode (s : String) :
    decodeText (Percent.encode Percent.unreserved s).toList = s := by
  have hpercent : Percent.unreserved 0x25 = false := by decide
  calc decodeText (Percent.encode Percent.unreserved s).toList
      = Utf8.decodeLossy (Percent.decode (utf8 (Percent.encode Percent.unreserved s))) := by
        rw [decodeText, String.ofList_toList]
    _ = Utf8.decodeLossy (utf8 s) := by
        rw [Percent.decode_utf8_encode Percent.unreserved_lt hpercent]
    _ = s := Utf8.decodeLossy_utf8 s

lemma decodeText_eq_empty {cs : List Char} : decodeText cs = "" ↔ cs = [] := by
  rw [decodeText, Utf8.decodeLossy_eq_empty, Percent.decode_eq_nil, utf8_eq_nil,
    String.ofList_eq_empty_iff]

/-- A character of a query that is written: one of a coded text, or one of the two marks. -/
def isBodyChar (c : Char) : Bool :=
  c == '&' || c == '=' || c == '%' || Percent.isUnreservedChar c

lemma toNat_lt_of_isBodyChar {c : Char} (h : isBodyChar c = true) : c.toNat < 0x80 := by
  simp only [isBodyChar, Bool.or_eq_true, beq_iff_eq] at h
  rcases h with ((rfl | rfl) | rfl) | h
  · decide
  · decide
  · decide
  · exact Percent.toNat_lt_of_isUnreservedChar h

lemma ne_equals_of_mem_encode {s : String} {c : Char}
    (h : c ∈ (Percent.encode Percent.unreserved s).toList) : (c != '=') = true := by
  rw [bne_iff_ne]
  rintro rfl
  rcases Percent.mem_encode_unreserved h with h | h <;> revert h <;> decide

lemma mem_write {p : QueryPair} {c : Char} (h : c ∈ (write p).toList) :
    c = '=' ∨ c = '%' ∨ Percent.isUnreservedChar c = true := by
  obtain ⟨name, value⟩ := p
  cases value with
  | none => exact .inr (Percent.mem_encode_unreserved h)
  | some value =>
    simp only [write, String.toList_append, List.mem_append] at h
    rcases h with (h | h) | h
    · exact .inr (Percent.mem_encode_unreserved h)
    · exact .inl (List.mem_singleton.1 h)
    · exact .inr (Percent.mem_encode_unreserved h)

lemma pair_write (p : QueryPair) : pair (write p).toList = p := by
  obtain ⟨name, value⟩ := p
  have hname : ∀ c ∈ (Percent.encode Percent.unreserved name).toList, (c != '=') = true :=
    fun _ => ne_equals_of_mem_encode
  cases value with
  | none =>
    have htake := List.takeWhile_eq_self_iff.2 hname
    have hdrop := List.dropWhile_eq_nil_iff.2 hname
    simp only [pair, write, htake, hdrop, decodeText_encode]
  | some value =>
    have hwrite : (write (name, some value)).toList =
        (Percent.encode Percent.unreserved name).toList ++
          '=' :: (Percent.encode Percent.unreserved value).toList := by
      simp [write, String.toList_append]
    have htake : (write (name, some value)).toList.takeWhile (· != '=') =
        (Percent.encode Percent.unreserved name).toList := by
      rw [hwrite, List.takeWhile_append_of_pos hname]
      simp
    have hdrop : (write (name, some value)).toList.dropWhile (· != '=') =
        '=' :: (Percent.encode Percent.unreserved value).toList := by
      rw [hwrite, List.dropWhile_append_of_pos hname]
      simp
    simp only [pair, htake, hdrop, decodeText_encode]

lemma isVoid_pair {piece : List Char} (h : piece ≠ []) : isVoid (pair piece) = false := by
  rw [Bool.eq_false_iff, ne_eq, isVoid_iff, pair]
  cases hdrop : piece.dropWhile (· != '=') with
  | nil =>
    intro hvoid
    have htake := decodeText_eq_empty.1 (congrArg Prod.fst hvoid)
    apply h
    rw [← List.takeWhile_append_dropWhile (p := (· != '=')) (l := piece), htake, hdrop]
    rfl
  | cons c value =>
    intro hvoid
    cases congrArg Prod.snd hvoid

/-! ### Queries -/

lemma write_ne_empty {p : QueryPair} (h : isVoid p = false) : (write p).toList ≠ [] := by
  -- The empty piece is read as the pair that leaves no trace.
  intro hnil
  have hback := pair_write p
  rw [hnil] at hback
  rw [← hback] at h
  revert h
  decide

lemma parse_intercalate {ps : List QueryPair} (hne : ps ≠ [])
    (htraced : ∀ p ∈ ps, isVoid p = false) :
    parse (String.intercalate "&" (ps.map write)) = ps := by
  have hmark : ∀ text ∈ ps.map write, '&' ∉ text.toList := by
    intro text htext hmem
    obtain ⟨p, -, rfl⟩ := List.mem_map.1 htext
    rcases mem_write hmem with h | h | h <;> revert h <;> decide
  have hkept : ∀ piece ∈ (ps.map write).map String.toList, (!piece.isEmpty) = true := by
    intro piece hpiece
    rw [List.map_map, List.mem_map] at hpiece
    obtain ⟨p, hp, rfl⟩ := hpiece
    simpa using write_ne_empty (htraced p hp)
  have hback : pair ∘ String.toList ∘ write = id := funext pair_write
  rw [parse, Joined.splitOn_toList_intercalate rfl (by simpa using hne) hmark,
    List.filter_eq_self.2 hkept, List.map_map, List.map_map, Function.comp_assoc, hback,
    List.map_id]

/-- **A query is read as the pairs it was written from**, but for those that leave no trace. -/
lemma parse_body (ps : List QueryPair) : parse ((body ps).getD "") = traced ps := by
  unfold body
  by_cases h : traced ps = []
  · rw [if_pos h, h]
    rfl
  · rw [if_neg h, Option.getD_some, parse_intercalate h]
    intro p hp
    simpa using (List.mem_filter.1 hp).2

lemma parse_body_parse (raw : String) : parse ((body (parse raw)).getD "") = parse raw := by
  rw [parse_body, traced, List.filter_eq_self]
  intro p hp
  rw [parse, List.mem_map] at hp
  obtain ⟨piece, hpiece, rfl⟩ := hp
  have hne : piece ≠ [] := by simpa using (List.mem_filter.1 hpiece).2
  rw [isVoid_pair hne]
  rfl

lemma isBodyChar_of_mem_body {ps : List QueryPair} {text : String} (h : body ps = some text)
    {c : Char} (hc : c ∈ text.toList) : isBodyChar c = true := by
  unfold body at h
  split at h
  · cases h
  · obtain rfl := Option.some.inj h
    rw [String.toList_intercalate] at hc
    rcases Joined.mem_intercalate hc with hc | ⟨piece, hpiece, hc⟩
    · obtain rfl := List.mem_singleton.1 hc
      decide
    · obtain ⟨s, hs, rfl⟩ := List.mem_map.1 hpiece
      obtain ⟨p, -, rfl⟩ := List.mem_map.1 hs
      simp only [isBodyChar, Bool.or_eq_true, beq_iff_eq]
      rcases mem_write hc with h | h | h
      · exact .inl (.inl (.inr h))
      · exact .inl (.inr h)
      · exact .inr h

end Query

namespace Http

lemma isMark_ofUInt8 (a b : UInt8) : isMark (Char.ofUInt8 a) b = (b == a) := by
  rw [isMark, Bool.eq_iff_iff, beq_iff_eq, beq_iff_eq]
  constructor
  · intro h
    exact UInt8.toNat_inj.1 (congrArg Char.toNat h)
  · rintro rfl
    rfl

namespace PathAndQuery

variable {path : String} {ps : List QueryPair} {target : PathAndQuery}

lemma legalText_utf8 (legal : UInt8 → Bool) (s : String) :
    legalText legal (utf8 s) = if (utf8 s).all legal then .ok s else .error .illegalCharacter := by
  rw [legalText, Utf8.decode_utf8]
  rfl

lemma all_isQueryOctet_body {text : String} (h : Query.body ps = some text) :
    (utf8 text).all isQueryOctet = true := by
  have hlegal : ∀ n < 0x80, Query.isBodyChar (Char.ofNat n) = true →
      isQueryOctet (UInt8.ofNat n) = true := by decide +kernel
  rw [List.all_eq_true]
  intro b hb
  obtain ⟨c, hc, hbc⟩ := List.mem_flatMap.1 hb
  have hbody := Query.isBodyChar_of_mem_body h hc
  have hascii : c.toNat < 0x80 := Query.toNat_lt_of_isBodyChar hbody
  rw [Utf8.utf8EncodeChar_of_lt hascii, List.mem_singleton] at hbc
  rw [hbc]
  exact hlegal c.toNat hascii (by rwa [Char.ofNat_toNat])

/-- **The first question mark is the one that was written**: what is scanned is the path and the
query as they are. -/
lemma scan_written (hquery : '?' ∉ path.toList) (hfragment : '#' ∉ path.toList) :
    scan (utf8 (path ++ Query.render ps)) =
      if (utf8 path).all isPathOctet then .ok ⟨path, Query.body ps⟩
      else .error .illegalCharacter := by
  have hask : ∀ b : UInt8, (!isMark '?' b) = (b != 0x3F) := fun b =>
    congrArg _ (isMark_ofUInt8 0x3F b)
  have hsharp : ∀ b : UInt8, (!isMark '#' b) = (b != 0x23) := fun b =>
    congrArg _ (isMark_ofUInt8 0x23 b)
  have hpath : ∀ b ∈ utf8 path, (b != 0x3F) = true ∧ (b != 0x23) = true := by
    intro b hb
    rw [bne_iff_ne, bne_iff_ne]
    constructor
    · rintro rfl
      exact Utf8.not_mem_utf8 (by decide) hquery hb
    · rintro rfl
      exact Utf8.not_mem_utf8 (by decide) hfragment hb
  simp only [scan, hask, hsharp]
  rw [Query.render_eq]
  cases hbody : Query.body ps with
  | none =>
    have hwhole : (utf8 path).takeWhile (· != 0x23) = utf8 path :=
      List.takeWhile_eq_self_iff.2 fun b hb => (hpath b hb).2
    have htake : (utf8 path).takeWhile (· != 0x3F) = utf8 path :=
      List.takeWhile_eq_self_iff.2 fun b hb => (hpath b hb).1
    have hdrop : (utf8 path).dropWhile (· != 0x3F) = [] :=
      List.dropWhile_eq_nil_iff.2 fun b hb => (hpath b hb).1
    rw [Option.elim_none, String.append_empty, hwhole, htake, hdrop, legalText_utf8]
    split <;> rfl
  | some text =>
    have hmark : utf8 "?" = [0x3F] := by decide
    have hlegal := all_isQueryOctet_body hbody
    have hwritten : utf8 (path ++ ("?" ++ text)) = utf8 path ++ 0x3F :: utf8 text := by
      rw [utf8_append, utf8_append, hmark, List.singleton_append]
    have hwhole : (utf8 path ++ 0x3F :: utf8 text).takeWhile (· != 0x23) =
        utf8 path ++ 0x3F :: utf8 text := by
      rw [List.takeWhile_eq_self_iff]
      intro b hb
      rcases List.mem_append.1 hb with hb | hb
      · exact (hpath b hb).2
      · rcases List.mem_cons.1 hb with rfl | hb
        · decide
        · have hoctet := List.all_eq_true.1 hlegal b hb
          rw [bne_iff_ne]
          rintro rfl
          revert hoctet
          decide
    have htake : (utf8 path ++ 0x3F :: utf8 text).takeWhile (· != 0x3F) = utf8 path := by
      rw [List.takeWhile_append_of_pos fun b hb => (hpath b hb).1]
      simp
    have hdrop : (utf8 path ++ 0x3F :: utf8 text).dropWhile (· != 0x3F) = 0x3F :: utf8 text := by
      rw [List.dropWhile_append_of_pos fun b hb => (hpath b hb).1]
      simp
    have hread : legalText isQueryOctet (utf8 text) = .ok text := by
      rw [legalText_utf8, if_pos hlegal]
    rw [Option.elim_some, hwritten, hwhole, htake, hdrop]
    simp only [hread, legalText_utf8]
    split <;> rfl

lemma parse_written_eq_ok (hslash : path.toList.head? = some '/') (hquery : '?' ∉ path.toList)
    (hfragment : '#' ∉ path.toList) :
    parse (utf8 (path ++ Query.render ps)) = .ok target ↔
      (utf8 path).all isPathOctet = true ∧
        (utf8 (path ++ Query.render ps)).length ≤ maxTargetLength ∧
          target = ⟨path, Query.body ps⟩ := by
  obtain ⟨rest, hrest⟩ : ∃ rest, utf8 (path ++ Query.render ps) = 0x2F :: rest := by
    obtain ⟨cs, hcs⟩ := List.head?_eq_some_iff.1 hslash
    rw [utf8_append, utf8, hcs]
    exact ⟨_, rfl⟩
  have hbegins : beginsWell (utf8 (path ++ Query.render ps)) = true := by
    rw [hrest]
    rfl
  have hnonempty : (utf8 (path ++ Query.render ps)).isEmpty = false := by
    rw [hrest]
    rfl
  rw [parse, hnonempty, hbegins, scan_written hquery hfragment, if_neg Bool.false_ne_true,
    if_pos rfl]
  constructor
  · intro h
    split at h
    · cases h
    · next hlong =>
      split at h
      · next hlegal => exact ⟨hlegal, Nat.le_of_not_lt hlong, (Except.ok.inj h).symm⟩
      · cases h
  · rintro ⟨hlegal, hlength, rfl⟩
    rw [if_neg (Nat.not_lt.2 hlength), if_pos hlegal]

end PathAndQuery

end Http

namespace Request

variable {r : Request} {u : Uri}

/-- The target that a request is written as. -/
def written (r : Request) : Uri :=
  match r.authority with
  | none => .origin ⟨r.path, Query.body r.query⟩
  | some a => .absolute r.scheme a ⟨r.path, Query.body r.query⟩

lemma uri_eq_ok (hslash : r.path.toList.head? = some '/') (hquery : '?' ∉ r.path.toList)
    (hfragment : '#' ∉ r.path.toList) :
    r.uri = .ok u ↔ (utf8 r.path).all PathAndQuery.isPathOctet = true ∧
      (utf8 (r.path ++ Query.render r.query)).length ≤ Http.maxTargetLength ∧ u = r.written := by
  have hpath : r.path ≠ "" := by
    intro hempty
    rw [hempty] at hslash
    cases hslash
  have hparts : ∀ target : PathAndQuery,
      (Uri.ofParts (r.authority.map fun _ => r.scheme) r.authority (some target)).mapError
        Error.uriMalformed = .ok (match r.authority with
          | none => .origin target
          | some a => .absolute r.scheme a target) := by
    intro target
    cases r.authority with
    | none => rfl
    | some a => rfl
  unfold uri
  simp only [if_neg hpath, Outcome.bind_eq_ok, Outcome.mapError_eq_ok,
    PathAndQuery.parse_written_eq_ok hslash hquery hfragment, hparts]
  constructor
  · rintro ⟨target, ⟨hlegal, hlength, rfl⟩, h⟩
    exact ⟨hlegal, hlength, (Except.ok.inj h).symm⟩
  · rintro ⟨hlegal, hlength, rfl⟩
    exact ⟨_, ⟨hlegal, hlength, rfl⟩, rfl⟩

/-- The request was read from what another one was written as: no pair of the query has passed for
two, for a part of the path or for a part of the authority. -/
structure ReadBack (r s : Request) : Prop where
  path : s.path = r.path
  authority : s.authority = r.authority
  scheme : ∀ a, r.authority = some a → s.scheme = r.scheme
  query : s.query = r.query.filter fun p => p ≠ ("", none)
  parsed : ∀ raw, r.query = Query.parse raw → s.query = r.query

lemma traced_eq (ps : List QueryPair) : Query.traced ps = ps.filter fun p => p ≠ ("", none) := by
  refine List.filter_congr fun p _ => ?_
  rw [Bool.eq_iff_iff, Bool.not_eq_true', Bool.eq_false_iff, ne_eq, Query.isVoid_iff,
    decide_eq_true_eq]

/-- **What a request is written as is read as that request.** -/
lemma readBack_written (hslash : r.path.toList.head? = some '/') {head : Head}
    {payload : Payload} (h : head.uri = r.written) : ReadBack r (ofHead head payload) := by
  have hpath : r.path ≠ "" := by
    intro hempty
    rw [hempty] at hslash
    cases hslash
  have htarget : r.written.target? = some ⟨r.path, Query.body r.query⟩ := by
    unfold written
    cases r.authority with
    | none => exact if_neg fun hempty => hpath hempty.1
    | some a => rfl
  have hquery : (ofHead head payload).query = Query.traced r.query := by
    calc (ofHead head payload).query
        = Query.parse ((Query.body r.query).getD "") := by rw [ofHead, h, htarget]; rfl
      _ = Query.traced r.query := Query.parse_body r.query
  constructor
  case path =>
    calc (ofHead head payload).path
        = (PathAndQuery.mk r.path (Query.body r.query)).pathOrSlash := by
          rw [ofHead, h, htarget]
          rfl
      _ = r.path := if_neg hpath
  case authority =>
    show head.uri.authority? = r.authority
    rw [h, written]
    cases r.authority <;> rfl
  case scheme =>
    intro a ha
    show head.uri.scheme?.getD .http = r.scheme
    rw [h, written, ha]
    rfl
  case query => rw [hquery, traced_eq]
  case parsed =>
    rintro raw hraw
    rw [hquery, hraw]
    exact (Query.parse_body (Query.parse raw)).symm.trans (Query.parse_body_parse raw)

/-- **A target is read back as what it was written from**, whatever the names and values of the
query hold; and a query that was read is read again from its written form. -/
theorem readBack_of_uri_eq_ok (hslash : r.path.toList.head? = some '/')
    (hquery : '?' ∉ r.path.toList) (hfragment : '#' ∉ r.path.toList) (h : r.uri = .ok u)
    (method : Method) (headers : Headers) (payload : Payload) :
    ReadBack r (ofHead ⟨method, u, headers⟩ payload) ∧
      ∀ raw, Query.parse (String.ofList ((Query.render (Query.parse raw)).toList.drop 1)) =
        Query.parse raw := by
  obtain ⟨-, -, hwritten⟩ := (uri_eq_ok hslash hquery hfragment).1 h
  refine ⟨readBack_written hslash hwritten, fun raw => ?_⟩
  rw [Query.ofList_drop_render, Query.parse_body_parse]

/-- A request whose query holds every mark of a target, and pairs without a name. -/
def marked : Request where
  method := .get
  scheme := .https
  authority := some ⟨"h:80"⟩
  path := "/a%20b"
  query := [("", none), ("a&b=", none), ("", some ""), ("é%", some "?#/@"), ("a", none),
    ("a", some "")]
  headers := Headers.empty
  payload := .unsigned

theorem readBack_marked :
    (marked.path.toList.head? = some '/' ∧ '?' ∉ marked.path.toList ∧
        '#' ∉ marked.path.toList ∧ marked.uri = .ok marked.written) ∧
      ReadBack marked (ofHead ⟨.get, marked.written, Headers.empty⟩ .unsigned) := by
  have hslash : marked.path.toList.head? = some '/' := by decide
  have hquery : '?' ∉ marked.path.toList := by decide
  have hfragment : '#' ∉ marked.path.toList := by decide
  have huri : marked.uri = .ok marked.written := by cbv
  exact ⟨⟨hslash, hquery, hfragment, huri⟩,
    (readBack_of_uri_eq_ok hslash hquery hfragment huri .get Headers.empty .unsigned).1⟩

end Request

end SigV4
