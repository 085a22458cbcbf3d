import Mathlib
import SigV4.Proofs.Canonical.Normal
import SigV4.Proofs.Canonical.Path
import SigV4.Proofs.Text.Coded
import SigV4.Proofs.Text.Strict

/-!
What a canonical path says.

It is the coded form of one text: the path as it was sent or with its escapes read, normalized if
that is asked for. Reading the escapes gives this text back. So the path that is encoded twice can
be told from its canonical form, and the one that is encoded once is settled: its canonical form is
its own.
-/

namespace SigV4.Canonical

open Percent (IsCoded isUnreservedChar unreservedOrSlash)

variable {c : Config} {r s : Request} {p : String}

/-- An unreserved character or a slash. -/
def isPathChar (ch : Char) : Bool := isUnreservedChar ch || ch == '/'

/-- The octets of the path before it is written: as it was sent, or with its escapes read. -/
def sentOctets (mode : PathEncoding) (path : String) : Octets :=
  match mode with
  | .double => utf8 path
  | .single => Percent.decode (utf8 path)

/-- The text that is written for a path, for which a slash stands if it is empty. -/
def settled (normalized : Bool) (s : String) : String :=
  let path := if s = "" then "/" else s
  if normalized then String.ofList (normalize path.toList) else path

/-- The coded form of the settled path, and of nothing else. -/
structure IsPathOf (c : Config) (path p : String) : Prop where
  ne_empty : p ≠ ""
  alphabet : IsCoded isPathChar p.toList
  decoded : ∃ s, utf8 s = sentOctets c.pathEncoding path ∧
    Percent.decode (utf8 p) = utf8 (settled c.normalizePath s)

/-! ### Settled paths -/

lemma settled_ne_empty (normalized : Bool) (s : String) : settled normalized s ≠ "" := by
  have hslash : (if s = "" then "/" else s) ≠ "" := by
    split
    · decide
    · assumption
  cases normalized with
  | false => exact hslash
  | true => exact fun h => normalize_ne_nil _ (String.ofList_eq_empty_iff.1 h)

lemma settled_settled (normalized : Bool) (s : String) :
    settled normalized (settled normalized s) = settled normalized s := by
  have hne := settled_ne_empty normalized s
  rw [settled, if_neg hne]
  cases normalized with
  | false => rfl
  | true =>
    simp only [settled, if_true, String.toList_ofList, normalize_normalize]

lemma writePath_eq (normalized : Bool) (s : String) :
    writePath normalized s = Percent.encode unreservedOrSlash (settled normalized s) := by
  unfold writePath settled
  by_cases h : s = ""
  · cases normalized <;> simp only [h, if_true] <;> cbv
  · simp only [if_neg h]

lemma unreservedOrSlash_lt (b : UInt8) (h : unreservedOrSlash b = true) : b.toNat < 0x80 := by
  rw [unreservedOrSlash, Bool.or_eq_true, beq_iff_eq] at h
  rcases h with h | h
  · exact Percent.unreserved_lt b h
  · have hslash : b.toNat = 0x2F := congrArg Char.toNat h
    omega

lemma decode_writePath (normalized : Bool) (s : String) :
    Percent.decode (utf8 (writePath normalized s)) = utf8 (settled normalized s) := by
  rw [writePath_eq, Percent.decode_utf8_encode unreservedOrSlash_lt (by decide)]

lemma isCoded_writePath (normalized : Bool) (s : String) :
    IsCoded isPathChar (writePath normalized s).toList := by
  rw [writePath_eq, Percent.encode, String.toList_ofList]
  exact Percent.isCoded_encodeOctets (fun _ h => h) _

lemma writePath_ne_empty (normalized : Bool) (s : String) : writePath normalized s ≠ "" := by
  intro h
  have hdecoded := decode_writePath normalized s
  rw [h] at hdecoded
  exact settled_ne_empty normalized s (utf8_eq_nil.1 hdecoded.symm)

/-! ### Reading the path -/

/-- **A path is read where its octets are a text**, and the text is the one of these octets. -/
lemma readPath_eq_ok_iff {mode : PathEncoding} {text : String} :
    readPath mode r = .ok text ↔ utf8 text = sentOctets mode r.path := by
  cases mode with
  | double =>
    constructor
    · rintro ⟨⟩
      rfl
    · intro h
      exact congrArg Except.ok (Utf8.utf8_injective h).symm
  | single =>
    rw [readPath, Request.decodedPath, Outcome.mapError_eq_ok, Utf8.decode_eq_ok_iff]
    rfl

lemma path_eq_ok_iff : path c r = .ok p ↔
    ∃ s, utf8 s = sentOctets c.pathEncoding r.path ∧ writePath c.normalizePath s = p := by
  rw [path_eq, Outcome.map_eq_ok]
  simp only [readPath_eq_ok_iff]

lemma path_eq_error_iff :
    (∃ e, path c r = .error e) ↔ ¬ IsText (sentOctets c.pathEncoding r.path) := by
  constructor
  · rintro ⟨e, he⟩ ⟨s, hs⟩
    rw [path_eq_ok_iff.2 ⟨s, hs, rfl⟩] at he
    cases he
  · intro h
    cases hpath : path c r with
    | error e => exact ⟨e, rfl⟩
    | ok p =>
      obtain ⟨s, hs, -⟩ := path_eq_ok_iff.1 hpath
      exact absurd ⟨s, hs⟩ h

lemma isPathOf_of_path (h : path c r = .ok p) : IsPathOf c r.path p := by
  obtain ⟨s, hs, rfl⟩ := path_eq_ok_iff.1 h
  exact ⟨writePath_ne_empty _ _, isCoded_writePath _ _, s, hs, decode_writePath _ _⟩

lemma path_congr_sentOctets
    (h : sentOctets c.pathEncoding r.path = sentOctets c.pathEncoding s.path) :
    path c r = path c s := by
  have hread : readPath c.pathEncoding r = readPath c.pathEncoding s := by
    unfold sentOctets at h
    unfold readPath Request.decodedPath
    cases hmode : c.pathEncoding with
    | double => rw [hmode] at h; exact congrArg Except.ok (Utf8.utf8_injective h)
    | single => rw [hmode] at h; simp only [h]
  rw [path_eq, path_eq, hread]

/-- **A path encoded once is settled**: what is written for it is written for itself. -/
lemma path_of_path (hmode : c.pathEncoding = .single) (h : path c r = .ok p)
    (hs : s.path = p) : path c s = .ok p := by
  obtain ⟨text, -, rfl⟩ := path_eq_ok_iff.1 h
  refine path_eq_ok_iff.2 ⟨settled c.normalizePath text, ?_, ?_⟩
  · rw [hs, hmode, sentOctets, decode_writePath]
  · rw [writePath_eq, writePath_eq, settled_settled]

/-- **A path encoded twice can be told**, unless it was normalized or is empty. -/
lemma eq_of_path_eq (hmode : c.pathEncoding = .double) (hoff : c.normalizePath = false)
    (hr : r.path ≠ "") (hs : s.path ≠ "") (h : path c s = path c r) : s.path = r.path := by
  have hwritten : writePath false s.path = writePath false r.path := by
    rw [path_eq, path_eq, hmode, hoff] at h
    exact Except.ok.inj h
  have hsettled : ∀ text, text ≠ "" → settled false text = text := fun text htext => if_neg htext
  have hdecoded := congrArg (fun p => Percent.decode (utf8 p)) hwritten
  simp only [decode_writePath, hsettled _ hr, hsettled _ hs] at hdecoded
  exact Utf8.utf8_injective hdecoded

/-- **What a canonical path says**, in both modes and normalized or not. There is none exactly if
the escapes are to be read and stand for no text. Otherwise it is the coded form of the settled
path. A path that is encoded once depends on what its escapes stand for and is settled; one that is
encoded twice is told from its canonical form. -/
theorem path_form (c : Config) (r : Request) :
    ((∃ e, path c r = .error e) ↔
        c.pathEncoding = .single ∧ ¬ IsText (Percent.decode (utf8 r.path))) ∧
      (∀ p, path c r = .ok p → IsPathOf c r.path p) ∧
      (c.pathEncoding = .single → ∀ s : Request,
        (Percent.decode (utf8 s.path) = Percent.decode (utf8 r.path) → path c s = path c r) ∧
          ∀ p, path c r = .ok p → s.path = p → path c s = .ok p) ∧
      (c.pathEncoding = .double → c.normalizePath = false → r.path ≠ "" → ∀ s : Request,
        s.path ≠ "" → path c s = path c r → s.path = r.path) := by
  refine ⟨?_, fun p => isPathOf_of_path, fun hmode s => ⟨fun h => ?_, fun p h hs => ?_⟩, ?_⟩
  · rw [path_eq_error_iff]
    cases hmode : c.pathEncoding with
    | double =>
      have htext : IsText (sentOctets .double r.path) := ⟨r.path, rfl⟩
      simp [htext]
    | single => simp [sentOctets]
  · refine path_congr_sentOctets ?_
    rw [hmode]
    exact h
  · exact path_of_path hmode h hs
  · exact fun hmode hoff hr s hs h => eq_of_path_eq hmode hoff hr hs h

/-- Escaped dots and slashes, a percent sign, a plus and a letter beyond ASCII: encoded once and
normalized, and encoded twice. -/
theorem path_form_of_escapes :
    let c := (Config.forService "s3" "us-east-1").withNormalizePath true
    let d := (Config.forService "demo" "us-east-1").withNormalizePath false
    let r := Request.ofHead ⟨.get, .origin ⟨"/x/../%2E//a%2fb%25+%C3%A9", none⟩, ⟨[]⟩⟩ .unsigned
    let p := "/a/b%25%2B%C3%A9"
    path c r = .ok p ∧ IsPathOf c r.path p ∧ path c { r with path := p } = .ok p ∧
      ∀ s : Request, s.path ≠ "" → path d s = path d r → s.path = r.path := by
  intro c d r p
  have h : path c r = .ok p := by cbv
  obtain ⟨-, hform, hsingle, -⟩ := path_form c r
  obtain ⟨-, -, -, hdouble⟩ := path_form d r
  exact ⟨h, hform p h, (hsingle rfl { r with path := p }).2 p h rfl, hdouble rfl rfl (by decide)⟩

end SigV4.Canonical
