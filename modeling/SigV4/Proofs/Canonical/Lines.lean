import Mathlib
import SigV4.Proofs.Canonical.Request
import SigV4.Proofs.Text.Joined
import SigV4.Proofs.Text.Percent

/-!
The canonical form as lines of text.

No part of a canonical form but the payload hash holds a line feed: methods and names are
tokens, path and query are percent coded, and values are folded from visible characters. A
header line has a name, so it is not the empty line that ends the headers, and the first colon
in it ends the name. Hence the written form can be read in one way only.
-/

namespace SigV4

open Http (HeaderName HeaderValue)

namespace Http

lemma Method.not_mem_text (m : Method) {c : Char} (hc : isTokenChar c = false) :
    c ∉ m.text.toList := fun h => by
  have := List.all_eq_true.1 m.isToken.2 c h
  rw [hc] at this
  cases this

lemma HeaderValue.not_mem_text {v : HeaderValue} (hv : v.isReadable = true) :
    '\n' ∉ (asciiText v.octets).toList := fun h => by
  rw [asciiText, String.toList_ofList, List.mem_map] at h
  obtain ⟨b, hb, hc⟩ := h
  have hvisible := List.all_eq_true.1 hv b hb
  have hten : b.toNat = 10 := congrArg Char.toNat hc
  simp [isVisibleOctet, hten] at hvisible

end Http

namespace Canonical

lemma newline_not_mem_path {c : Config} {r : Request} {p : String} (h : path c r = .ok p) :
    '\n' ∉ p.toList := by
  rw [path_eq] at h
  obtain ⟨s, -, rfl⟩ := Outcome.map_eq_ok.1 h
  intro hmem
  rcases mem_writePath hmem with h | h | h <;> revert h <;> decide

lemma newline_not_mem_query (ps : List QueryPair) : '\n' ∉ (query ps).toList := by
  intro h
  rw [query, String.toList_intercalate] at h
  rcases Joined.mem_intercalate h with h | ⟨piece, hpiece, hc⟩
  · revert h; decide
  rw [List.mem_map] at hpiece
  obtain ⟨text, htext, rfl⟩ := hpiece
  obtain ⟨p, hp, rfl⟩ := List.mem_map.1 htext
  rw [queryPairs, List.mem_mergeSort, List.mem_map] at hp
  obtain ⟨q, -, rfl⟩ := hp
  simp only [encodePair, String.toList_append, List.mem_append] at hc
  rcases hc with (hc | hc) | hc
  · rcases Percent.mem_encode_unreserved hc with h | h <;> revert h <;> decide
  · revert hc; decide
  · rcases Percent.mem_encode_unreserved hc with h | h <;> revert h <;> decide

lemma newline_not_mem_joined {vs : List HeaderValue} (h : ∀ v ∈ vs, v.isReadable = true) :
    '\n' ∉ (joined vs).toList := by
  intro hmem
  rw [joined, String.toList_intercalate] at hmem
  rcases Joined.mem_intercalate hmem with hc | ⟨piece, hpiece, hc⟩
  · revert hc; decide
  rw [List.map_map, List.mem_map] at hpiece
  obtain ⟨v, hv, rfl⟩ := hpiece
  rcases mem_fold hc with hc | hc
  · revert hc; decide
  · exact HeaderValue.not_mem_text (h v hv) hc

end Canonical

namespace CanonicalRequest

/-- What a header line of a canonical form is made of. -/
def IsLine (h : String × String) : Prop :=
  (h.1 ≠ "" ∧ '\n' ∉ h.1.toList ∧ ':' ∉ h.1.toList) ∧ '\n' ∉ h.2.toList

/-- Each part but the payload hash stays on its line, and each header on its own. -/
structure IsLined (c : CanonicalRequest) : Prop where
  method : '\n' ∉ c.method.toList
  path : '\n' ∉ c.path.toList
  query : '\n' ∉ c.query.toList
  headers : ∀ h ∈ c.headers, IsLine h

lemma isLined_of_ofRequest {c : Config} {r : Request} {hash : String} {a : CanonicalRequest}
    (h : ofRequest c r hash = .ok a) : a.IsLined := by
  obtain ⟨hpath, hheaders, hmethod, hquery, -⟩ := ofRequest_eq_ok h
  refine ⟨?_, Canonical.newline_not_mem_path hpath, ?_, ?_⟩
  · rw [hmethod]
    exact r.method.not_mem_text (by decide)
  · rw [hquery]
    exact Canonical.newline_not_mem_query r.query
  · intro line hline
    obtain ⟨n, -, rfl, hread⟩ := Canonical.mem_headers hheaders hline
    exact ⟨⟨n.isName.1, n.not_mem_text (by decide), n.not_mem_text (by decide)⟩,
      Canonical.newline_not_mem_joined hread⟩

lemma toList_text (a : CanonicalRequest) :
    a.text.toList = a.method.toList ++ '\n' :: (a.path.toList ++ '\n' :: (a.query.toList ++ '\n' ::
      (a.headers.flatMap (fun h => (line h).toList) ++ '\n' ::
        (a.signedHeaders.toList ++ '\n' :: a.payloadHash.toList)))) := by
  simp [text, String.toList_append, String.toList_join, List.flatMap_map]

lemma toList_line (h : String × String) :
    (line h).toList = h.1.toList ++ ':' :: (h.2.toList ++ ['\n']) := by
  simp [line, String.toList_append]

lemma line_append_ne {h : String × String} (hh : IsLine h) {s t : List Char} :
    (line h).toList ++ s ≠ '\n' :: t := by
  intro heq
  rw [toList_line] at heq
  obtain ⟨c, cs, hc⟩ := List.exists_cons_of_ne_nil fun hnil =>
    hh.1.1 (String.toList_eq_nil_iff.1 hnil)
  rw [hc, List.cons_append, List.cons_append] at heq
  exact hh.1.2.1 (by rw [hc, (List.cons.inj heq).1]; exact List.mem_cons_self)

lemma line_eq_and_eq {h k : String × String} (hh : IsLine h) (hk : IsLine k) {s t : List Char}
    (heq : (line h).toList ++ s = (line k).toList ++ t) : h = k ∧ s = t := by
  rw [toList_line, toList_line, List.append_assoc, List.append_assoc, List.cons_append,
    List.cons_append, List.append_assoc, List.append_assoc] at heq
  obtain ⟨hname, hrest⟩ := Joined.eq_and_eq_of_append_cons_eq hh.1.2.2 hk.1.2.2 heq
  obtain ⟨hvalue, hst⟩ := Joined.eq_and_eq_of_append_cons_eq hh.2 hk.2 hrest
  exact ⟨Prod.ext (String.toList_inj.1 hname) (String.toList_inj.1 hvalue), hst⟩

lemma headers_eq_and_eq {hs ks : List (String × String)} (hhs : ∀ h ∈ hs, IsLine h)
    (hks : ∀ k ∈ ks, IsLine k) {s t : List Char}
    (heq : hs.flatMap (fun h => (line h).toList) ++ '\n' :: s =
      ks.flatMap (fun h => (line h).toList) ++ '\n' :: t) : hs = ks ∧ s = t := by
  induction hs generalizing ks with
  | nil =>
    cases ks with
    | nil => exact ⟨rfl, (List.cons.inj heq).2⟩
    | cons k ks =>
      rw [List.flatMap_cons, List.append_assoc] at heq
      exact absurd heq.symm (line_append_ne (hks k List.mem_cons_self))
  | cons h hs ih =>
    cases ks with
    | nil =>
      rw [List.flatMap_cons, List.append_assoc] at heq
      exact absurd heq (line_append_ne (hhs h List.mem_cons_self))
    | cons k ks =>
      rw [List.flatMap_cons, List.flatMap_cons, List.append_assoc, List.append_assoc] at heq
      obtain ⟨hhk, htail⟩ :=
        line_eq_and_eq (hhs h List.mem_cons_self) (hks k List.mem_cons_self) heq
      obtain ⟨hhs', hst⟩ := ih (fun x hx => hhs x (List.mem_cons_of_mem _ hx))
        (fun x hx => hks x (List.mem_cons_of_mem _ hx)) htail
      exact ⟨by rw [hhk, hhs'], hst⟩

/-- A written form is read in one way, whatever payload hash it ends in. -/
lemma eq_of_text_eq {a b : CanonicalRequest} (ha : a.IsLined) (hb : b.IsLined)
    (h : a.text = b.text) : a = b := by
  have heq : a.text.toList = b.text.toList := congrArg String.toList h
  rw [toList_text, toList_text] at heq
  obtain ⟨hmethod, heq⟩ := Joined.eq_and_eq_of_append_cons_eq ha.method hb.method heq
  obtain ⟨hpath, heq⟩ := Joined.eq_and_eq_of_append_cons_eq ha.path hb.path heq
  obtain ⟨hquery, heq⟩ := Joined.eq_and_eq_of_append_cons_eq ha.query hb.query heq
  obtain ⟨hheaders, heq⟩ := headers_eq_and_eq ha.headers hb.headers heq
  -- The signed names are determined by the header lines, so the payload hash is what is left.
  have hnames : a.signedHeaders = b.signedHeaders := by rw [signedHeaders, signedHeaders, hheaders]
  rw [hnames] at heq
  have hhash := (List.cons.inj (List.append_cancel_left heq)).2
  rcases a with ⟨_, _, _, _, _⟩
  rcases b with ⟨_, _, _, _, _⟩
  simp only [mk.injEq]
  exact ⟨String.toList_inj.1 hmethod, String.toList_inj.1 hpath, String.toList_inj.1 hquery,
    hheaders, String.toList_inj.1 hhash⟩

/-- **One text, one canonical form.** Whatever the requests, the configurations and the payload
hashes, forms that are written alike are the same part by part, since no part of either can
end a line or pass for a header line or for the empty line. -/
theorem eq_of_ofRequest_text_eq {c d : Config} {r s : Request} {hash hash' : String}
    {a b : CanonicalRequest} (ha : ofRequest c r hash = .ok a) (hb : ofRequest d s hash' = .ok b)
    (h : a.text = b.text) : a = b ∧ a.IsLined ∧ b.IsLined :=
  have hal := isLined_of_ofRequest ha
  have hbl := isLined_of_ofRequest hb
  ⟨eq_of_text_eq hal hbl h, hal, hbl⟩

/-- Two requests that differ in blanks within a value, and a payload hash of several lines. -/
theorem eq_of_text_eq_of_blanks :
    let c := Config.forService "demo" "us-east-1"
    let uri : Http.Uri := .origin ⟨"/a b", some "b&a=:"⟩
    let a : CanonicalRequest := ⟨"GET", "/a%20b", "a=%3A&b=", [("host", "a: b")], "x\n\nhost\ny"⟩
    let r := Request.ofHead ⟨.get, uri, ⟨[(.host, ⟨utf8 "a: b", false, by decide⟩)]⟩⟩ .unsigned
    let s := Request.ofHead ⟨.get, uri, ⟨[(.host, ⟨utf8 " a:  b\t", true, by decide⟩)]⟩⟩ .unsigned
    ofRequest c r a.payloadHash = .ok a ∧ ofRequest c s a.payloadHash = .ok a ∧
      a = a ∧ a.IsLined ∧ a.IsLined :=
  have hr := by cbv
  have hs := by cbv
  ⟨hr, hs, eq_of_ofRequest_text_eq hr hs rfl⟩

end CanonicalRequest

end SigV4
