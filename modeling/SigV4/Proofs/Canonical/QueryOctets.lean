import Mathlib
import SigV4.Proofs.Canonical.Order
import SigV4.Proofs.Canonical.Request
import SigV4.Proofs.Text.Ascii

/-!
The canonical query from the octets that are sent.

A receiver that has never seen the decoded pairs cuts the query it was sent at each `&` and each
piece at its first `=`, reads the escapes, drops what has no name, and writes the rest in order.
It works on octets, so nothing has to be text. The two ways meet exactly where the escapes do
stand for text; elsewhere the sender signs U+FFFD in place of octets that form no character.
-/

namespace SigV4.QueryOctets

open Utf8 (octetsOf repair)

/-- Name and value of a piece with their escapes read; an absent value is an empty one. -/
def pair (piece : Octets) : Octets × Octets :=
  (Percent.decode (piece.takeWhile (· != 0x3D)),
    Percent.decode ((piece.dropWhile (· != 0x3D)).drop 1))

/-- The pairs of a query that have a name. -/
def pairs (raw : Octets) : List (Octets × Octets) :=
  ((raw.splitOn 0x26).map pair).filter fun p => !p.1.isEmpty

def encode (bs : Octets) : Octets := bs.flatMap (Percent.escapeOctets Percent.unreserved)

def encodePair (p : Octets × Octets) : Octets × Octets := (encode p.1, encode p.2)

/-- Order of pairs octet by octet, names first. -/
def le (p q : Octets × Octets) : Bool := p.1 < q.1 || (p.1 = q.1 && p.2 ≤ q.2)

/-- Pairs encoded, in order, and joined. -/
def written (ps : List (Octets × Octets)) : Octets :=
  [0x26].intercalate (((ps.map encodePair).mergeSort le).map fun p => p.1 ++ 0x3D :: p.2)

/-! ### The canonical query, in octets -/

def ofPair (p : QueryPair) : Octets × Octets := (utf8 p.1, utf8 (p.2.getD ""))

def ofTexts (p : String × String) : Octets × Octets := (utf8 p.1, utf8 p.2)

lemma ofTexts_encodePair (p : QueryPair) :
    ofTexts (Canonical.encodePair p) = encodePair (ofPair p) := by
  rw [ofTexts, Canonical.encodePair, Percent.utf8_encode Percent.unreserved_lt,
    Percent.utf8_encode Percent.unreserved_lt]
  rfl

lemma encode_ascii {s : String} {c : Char}
    (h : c ∈ (Percent.encode Percent.unreserved s).toList) : c.toNat < 0x80 := by
  rcases Percent.mem_encode_unreserved h with rfl | h
  · decide
  · exact Percent.toNat_lt_of_isUnreservedChar h

lemma le_iff (p q : Octets × Octets) : le p q = true ↔ p.1 < q.1 ∨ p.1 = q.1 ∧ p.2 ≤ q.2 := by
  simp [le]

lemma pairLE_eq_le {p q : String × String}
    (hp : (∀ c ∈ p.1.toList, c.toNat < 0x80) ∧ ∀ c ∈ p.2.toList, c.toNat < 0x80)
    (hq : (∀ c ∈ q.1.toList, c.toNat < 0x80) ∧ ∀ c ∈ q.2.toList, c.toNat < 0x80) :
    Canonical.pairLE p q = le (ofTexts p) (ofTexts q) := by
  have hname : utf8 p.1 < utf8 q.1 ↔ p.1 < q.1 := Utf8.utf8_lt_iff hp.1 hq.1
  have hvalue : utf8 p.2 ≤ utf8 q.2 ↔ p.2 ≤ q.2 := by
    rw [← List.not_lt, Utf8.utf8_lt_iff hq.2 hp.2, not_lt]
  have hpair : Canonical.pairLE p q = true ↔ p.1 < q.1 ∨ p.1 = q.1 ∧ p.2 ≤ q.2 := by
    simp only [Canonical.pairLE, Bool.or_eq_true, Bool.and_eq_true, decide_eq_true_eq]
  rw [Bool.eq_iff_iff, hpair, le_iff]
  simp only [ofTexts, hname, hvalue, Utf8.utf8_injective.eq_iff]

/-- **The canonical query is written from the octets of the pairs that have a name.** -/
lemma utf8_query (ps : List QueryPair) :
    utf8 (Canonical.query ps) = written ((ps.filter fun p => p.1 ≠ "").map ofPair) := by
  have hsort : (Canonical.queryPairs ps).map ofTexts =
      (((ps.filter fun p => p.1 ≠ "").map ofPair).map encodePair).mergeSort le := by
    have hpairs : ((ps.filter fun p => p.1 ≠ "").map Canonical.encodePair).map ofTexts =
        ((ps.filter fun p => p.1 ≠ "").map ofPair).map encodePair := by
      rw [List.map_map, List.map_map]
      exact List.map_congr_left fun p _ => ofTexts_encodePair p
    rw [Canonical.queryPairs, List.map_mergeSort, hpairs]
    intro p hp q hq
    obtain ⟨p', -, rfl⟩ := List.mem_map.1 hp
    obtain ⟨q', -, rfl⟩ := List.mem_map.1 hq
    exact pairLE_eq_le ⟨fun _ => encode_ascii, fun _ => encode_ascii⟩
      ⟨fun _ => encode_ascii, fun _ => encode_ascii⟩
  have hmark : utf8 "&" = [0x26] := by decide
  rw [Canonical.query, Utf8.utf8_intercalate, hmark, written, ← hsort, List.map_map, List.map_map]
  congr 2
  funext p
  have hequals : utf8 "=" = [0x3D] := by decide
  simp [ofTexts, hequals]

/-! ### The pairs of a query that is sent -/

/-- A pair with its lossy readings in place of its octets. -/
def repairPair (p : Octets × Octets) : Octets × Octets := (repair p.1, repair p.2)

lemma ofPair_pair (piece : List Char) :
    ofPair (Query.pair piece) = repairPair (pair (octetsOf piece)) := by
  have hmark : Char.ofUInt8 0x3D = '=' := rfl
  have hname := Utf8.takeWhile_octetsOf (b := 0x3D) (by decide) piece
  have hvalue := Utf8.dropWhile_octetsOf (b := 0x3D) (by decide) piece
  rw [hmark] at hname hvalue
  unfold Query.pair
  cases hrest : piece.dropWhile (· != '=') with
  | nil =>
    rw [hrest] at hvalue
    simp only [ofPair, repairPair, pair, hname, hvalue, Query.decodeText, utf8_ofList]
    rfl
  | cons c value =>
    have hc : c = '=' := by
      have := List.head?_dropWhile_not (· != '=') piece
      rw [hrest] at this
      simpa using this
    rw [hrest, hc, ← hmark, Utf8.octetsOf_cons_mark (by decide)] at hvalue
    simp only [ofPair, repairPair, pair, hname, hvalue, Query.decodeText, utf8_ofList]
    rfl

lemma name_isEmpty (piece : List Char) :
    (Query.pair piece).1 = "" ↔ (pair (octetsOf piece)).1 = [] := by
  have h := congrArg Prod.fst (ofPair_pair piece)
  rw [← utf8_eq_nil]
  show (ofPair (Query.pair piece)).1 = [] ↔ _
  rw [h]
  exact Utf8.repair_eq_nil

lemma map_ofPair_parse (raw : String) :
    ((Query.parse raw).filter fun p => p.1 ≠ "").map ofPair =
      (pairs (utf8 raw)).map repairPair := by
  have hmark : Char.ofUInt8 0x26 = '&' := rfl
  have hcut : (utf8 raw).splitOn 0x26 = (raw.toList.splitOn '&').map octetsOf :=
    Utf8.splitOn_octetsOf (b := 0x26) (by decide) raw.toList
  rw [Query.parse, pairs, hcut, List.filter_map, List.filter_filter, List.map_map, List.map_map,
    List.filter_map, List.map_map]
  have hkeep : ∀ piece : List Char,
      (((fun p : QueryPair => decide (p.1 ≠ "")) ∘ Query.pair) piece && !piece.isEmpty) =
        ((fun p : Octets × Octets => !p.1.isEmpty) ∘ pair ∘ octetsOf) piece := by
    intro piece
    rw [Bool.eq_iff_iff]
    simp only [Function.comp_apply, Bool.and_eq_true, decide_eq_true_eq, Bool.not_eq_true',
      List.isEmpty_eq_false_iff, ne_eq, name_isEmpty]
    -- A piece without characters has no name either.
    refine ⟨fun h => h.1, fun h => ⟨h, ?_⟩⟩
    rintro rfl
    exact h rfl
  rw [List.filter_congr fun piece _ => hkeep piece]
  exact List.map_congr_left fun piece _ => ofPair_pair piece

/-! ### Reading back what was written -/

lemma mem_encode {bs : Octets} {b : UInt8} (h : b ∈ encode bs) :
    b = 0x25 ∨ Percent.unreserved b = true := by
  have hdigit : ∀ n < 16, Percent.unreserved (Percent.octetDigit n) = true := by decide
  obtain ⟨a, -, ha⟩ := List.mem_flatMap.1 h
  have ha' : a.toNat < 256 := a.toNat_lt
  unfold Percent.escapeOctets at ha
  split at ha
  · next hkeep => exact .inr (List.mem_singleton.1 ha ▸ hkeep)
  · simp only [List.mem_cons, List.not_mem_nil, or_false] at ha
    rcases ha with rfl | rfl | rfl
    · exact .inl rfl
    · exact .inr (hdigit _ (by omega))
    · exact .inr (hdigit _ (by omega))

lemma ampersand_not_mem_encode (bs : Octets) : 0x26 ∉ encode bs := fun h => by
  rcases mem_encode h with h | h <;> revert h <;> decide

lemma equals_not_mem_encode (bs : Octets) : 0x3D ∉ encode bs := fun h => by
  rcases mem_encode h with h | h <;> revert h <;> decide

lemma decode_encode (bs : Octets) : Percent.decode (encode bs) = bs := by
  have hkeep : Percent.unreserved 0x25 = false := by decide
  have h := Percent.decode_flatMap_escapeOctets hkeep bs []
  simpa [Percent.decode, encode] using h

/-- The piece that a pair is written as. -/
def piece (p : Octets × Octets) : Octets := encode p.1 ++ 0x3D :: encode p.2

lemma pair_piece (p : Octets × Octets) : pair (piece p) = p := by
  have hne : ∀ b ∈ encode p.1, (b != 0x3D) = true := by
    intro b hb
    rw [bne_iff_ne]
    rintro rfl
    exact equals_not_mem_encode _ hb
  have hname : (piece p).takeWhile (· != 0x3D) = encode p.1 := by
    rw [piece, List.takeWhile_append_of_pos hne]
    simp
  have hvalue : (piece p).dropWhile (· != 0x3D) = 0x3D :: encode p.2 := by
    rw [piece, List.dropWhile_append_of_pos hne]
    simp
  rw [pair, hname, hvalue, List.drop_one, List.tail_cons, decode_encode, decode_encode]

lemma exists_written_eq (ps : List (Octets × Octets)) :
    ∃ qs : List (Octets × Octets), qs.Perm ps ∧ written ps = [0x26].intercalate (qs.map piece) := by
  refine ⟨ps.mergeSort fun p q => le (encodePair p) (encodePair q), List.mergeSort_perm _ _, ?_⟩
  have hmap := List.map_mergeSort (r := fun p q => le (encodePair p) (encodePair q)) (s := le)
    (f := encodePair) (l := ps) fun _ _ _ _ => rfl
  rw [written, ← hmap, List.map_map]
  rfl

lemma pairs_written {ps : List (Octets × Octets)} (hps : ∀ p ∈ ps, p.1 ≠ []) :
    (pairs (written ps)).Perm ps := by
  obtain ⟨qs, hqs, hwritten⟩ := exists_written_eq ps
  refine List.Perm.trans (List.Perm.of_eq ?_) hqs
  rw [hwritten, pairs]
  by_cases hnil : qs = []
  · subst hnil
    rfl
  have hmark : ∀ l ∈ qs.map piece, (0x26 : UInt8) ∉ l := by
    intro l hl
    obtain ⟨p, -, rfl⟩ := List.mem_map.1 hl
    rw [piece, List.mem_append, List.mem_cons, not_or, not_or]
    exact ⟨ampersand_not_mem_encode _, by decide, ampersand_not_mem_encode _⟩
  have hback : pair ∘ piece = id := funext pair_piece
  rw [List.splitOn_intercalate _ hmark (by simpa using hnil), List.map_map, hback, List.map_id,
    List.filter_eq_self]
  intro p hp
  simpa using hps p (hqs.mem_iff.1 hp)

lemma perm_of_written_eq {ps qs : List (Octets × Octets)} (hps : ∀ p ∈ ps, p.1 ≠ [])
    (hqs : ∀ q ∈ qs, q.1 ≠ []) (h : written ps = written qs) : ps.Perm qs :=
  (pairs_written hps).symm.trans (h ▸ pairs_written hqs)

lemma name_ne_nil_of_mem_pairs {raw : Octets} {p : Octets × Octets} (h : p ∈ pairs raw) :
    p.1 ≠ [] := by
  simpa using (List.mem_filter.1 h).2

/-- The lossy readings are written like the octets exactly if all of these are text. -/
lemma written_map_repairPair_iff (raw : Octets) :
    written ((pairs raw).map repairPair) = written (pairs raw) ↔
      ∀ p ∈ pairs raw, IsText p.1 ∧ IsText p.2 := by
  constructor
  · intro h p hp
    have hnamed : ∀ q ∈ (pairs raw).map repairPair, q.1 ≠ [] := by
      intro q hq
      obtain ⟨q', hq', rfl⟩ := List.mem_map.1 hq
      exact fun hnil => name_ne_nil_of_mem_pairs hq' (Utf8.repair_eq_nil.1 hnil)
    -- Every pair is among the repaired ones, and those are text.
    have hmem := (perm_of_written_eq hnamed (fun _ => name_ne_nil_of_mem_pairs) h).mem_iff.2 hp
    obtain ⟨q, -, rfl⟩ := List.mem_map.1 hmem
    exact ⟨Utf8.isText_repair _, Utf8.isText_repair _⟩
  · intro h
    have hid : (pairs raw).map repairPair = (pairs raw).map id :=
      List.map_congr_left fun p hp => Prod.ext (Utf8.repair_eq_self_iff.2 (h p hp).1)
        (Utf8.repair_eq_self_iff.2 (h p hp).2)
    rw [hid, List.map_id]

end SigV4.QueryOctets

namespace SigV4

open Http (Head Method Uri)

/-- The request is made of a target, which comes with a head or as text. -/
inductive Request.IsTo (uri : Uri) : Request → Prop
  | ofHead (head : Head) (payload : Payload) (h : head.uri = uri) : IsTo uri (ofHead head payload)
  | ofTarget (method : Method) (target : String) (r : Request)
      (huri : Uri.parse (utf8 target) = .ok uri) (h : ofTarget method target = .ok r) : IsTo uri r

lemma Request.IsTo.query_eq {uri : Uri} {r : Request} (h : IsTo uri r) :
    r.query = Query.parse (uri.query?.getD "") := by
  have hhead : ∀ (head : Head) (payload : Payload), (Request.ofHead head payload).query =
      Query.parse (head.uri.query?.getD "") := by
    intro head payload
    unfold Request.ofHead Uri.query?
    cases head.uri.target? <;> rfl
  cases h with
  | ofHead head payload h => rw [hhead, h]
  | ofTarget method target r huri h =>
    rw [Request.ofTarget, huri] at h
    cases h
    exact hhead _ _

namespace QueryOctets

/-- **What is signed of a query, and when it is what is sent.** The signed query is written from
the lossy readings of the names and values that are sent. It is written from these themselves
exactly if they are all text, those of pairs without a name apart. -/
theorem signed_query_eq_sent_query_iff {uri : Uri} {r : Request} (hr : r.IsTo uri) {c : Config}
    {hash : String} {a : CanonicalRequest} (h : CanonicalRequest.ofRequest c r hash = .ok a) :
    utf8 a.query = written ((pairs (utf8 (uri.query?.getD ""))).map repairPair) ∧
      (utf8 a.query = written (pairs (utf8 (uri.query?.getD ""))) ↔
        ∀ p ∈ pairs (utf8 (uri.query?.getD "")), IsText p.1 ∧ IsText p.2) := by
  have hquery : utf8 a.query = written ((pairs (utf8 (uri.query?.getD ""))).map repairPair) := by
    rw [(CanonicalRequest.ofRequest_eq_ok h).2.2.2.1, hr.query_eq, utf8_query, map_ofPair_parse]
  exact ⟨hquery, by rw [hquery]; exact written_map_repairPair_iff _⟩

/-- An escape that stands for no text: one octet is sent and three others are signed. -/
theorem signed_query_ne_sent_query :
    let target : Uri := .origin ⟨"/", some "k=%FF"⟩
    let r := Request.ofHead ⟨.get, target, ⟨[]⟩⟩ .unsigned
    let a : CanonicalRequest := ⟨"GET", "/", "k=%EF%BF%BD", [], "UNSIGNED-PAYLOAD"⟩
    Uri.parse (utf8 "/?k=%FF") = .ok target ∧ Request.ofTarget .get "/?k=%FF" = .ok r ∧
      CanonicalRequest.ofRequest (.forService "demo" "us-east-1") r "UNSIGNED-PAYLOAD" = .ok a ∧
      written (pairs (utf8 "k=%FF")) = utf8 "k=%FF" ∧
      utf8 a.query ≠ written (pairs (utf8 "k=%FF")) := by
  have hsent : written (pairs (utf8 "k=%FF")) = utf8 "k=%FF" := by cbv
  refine ⟨by cbv, by cbv, by cbv, hsent, ?_⟩
  rw [hsent]
  decide

/-- Pairs out of order, an empty one, an absent value, a name that is no text, and escapes that
need not be there. -/
theorem signed_query_eq_sent_query_of_mixed :
    let target : Uri := .origin ⟨"/", some "b=%7e&a&=%FF&"⟩
    let r := Request.ofHead ⟨.get, target, ⟨[]⟩⟩ .unsigned
    let a : CanonicalRequest := ⟨"GET", "/", "a=&b=~", [], "UNSIGNED-PAYLOAD"⟩
    let raw := utf8 (target.query?.getD "")
    r.IsTo target ∧
      CanonicalRequest.ofRequest (.forService "demo" "us-east-1") r "UNSIGNED-PAYLOAD" = .ok a ∧
      utf8 a.query = written ((pairs raw).map repairPair) ∧
      (utf8 a.query = written (pairs raw) ↔ ∀ p ∈ pairs raw, IsText p.1 ∧ IsText p.2) := by
  intro target r a raw
  have hr : r.IsTo target := .ofHead ⟨.get, target, ⟨[]⟩⟩ .unsigned rfl
  have ha : CanonicalRequest.ofRequest (.forService "demo" "us-east-1") r "UNSIGNED-PAYLOAD" =
      .ok a := by cbv
  exact ⟨hr, ha, signed_query_eq_sent_query_iff hr ha⟩

end QueryOctets

end SigV4
