import Mathlib
import SigV4.Proofs.Canonical.Listing
import SigV4.Proofs.Canonical.Request

/-!
Headers that are left out of the signature.

A configuration is made for a service and then changed, in any order and any number of times. The
headers it leaves out are told by the history alone: those that were named and not forgotten since,
in whatever letter case. Naming one more header takes its line out of every canonical form, and
nothing else.
-/

namespace SigV4

namespace Config

/-- A change of a configuration. -/
inductive Change where
  | region (text : String)
  | environment (e : Environment)
  | excludedOnly (names : List String)
  | exclude (name : String)
  | pathEncoding (mode : PathEncoding)
  | normalizePath (on : Bool)
  | contentHashHeader (on : Bool)
  | signSecurityToken (on : Bool)

namespace Change

def apply (c : Config) : Change → Config
  | region text => c.withRegion text
  | environment e => (c.fromEnvironment e).value
  | excludedOnly names => c.withExcluded names
  | exclude name => c.exclude name
  | pathEncoding mode => c.withPathEncoding mode
  | normalizePath on => c.withNormalizePath on
  | contentHashHeader on => c.withContentHashHeader on
  | signSecurityToken on => c.withSignSecurityToken on

/-- The headers that the change names, as they are written. -/
def names : Change → List String
  | excludedOnly names => names
  | exclude name => [name]
  | _ => []

/-- The change forgets the headers that were named before. -/
def forgets : Change → Bool
  | excludedOnly _ => true
  | _ => false

end Change

/-- The configuration after some changes, the first one first. -/
def after (c : Config) (changes : List Change) : Config := changes.foldl Change.apply c

/-- A name that is left out after these changes, as it is written: it was named by one of them and
not forgotten since, or it is left out from the start and never forgotten. -/
inductive IsNamed (changes : List Change) (name : String) : Prop
  | start (h : name ∈ defaultExcluded) (hkept : ∀ ch ∈ changes, ch.forgets = false)
  | change (before : List Change) (ch : Change) (later : List Change)
      (hchanges : changes = before ++ ch :: later) (hname : name ∈ ch.names)
      (hkept : ∀ ch ∈ later, ch.forgets = false)

variable {c : Config} {changes : List Change} {ch : Change} {name m : String}

lemma after_append_singleton (c : Config) (changes : List Change) (ch : Change) :
    c.after (changes ++ [ch]) = ch.apply (c.after changes) := by
  simp [after]

lemma excluded_fromEnvironment (c : Config) (e : Environment) :
    (c.fromEnvironment e).value.excluded = c.excluded := by
  unfold fromEnvironment
  split
  · split <;> rfl
  · rfl

/-- **One change** names headers, in lower case, and keeps the others or forgets them. -/
lemma mem_excluded_apply : m ∈ (ch.apply c).excluded ↔
    (∃ name ∈ ch.names, Ascii.lower name = m) ∨ ch.forgets = false ∧ m ∈ c.excluded := by
  cases ch with
  | excludedOnly names =>
    simp [Change.apply, withExcluded, Change.names, Change.forgets]
  | exclude name =>
    simp [Change.apply, Config.exclude, Change.names, Change.forgets, or_comm, eq_comm]
  | environment e =>
    simp [Change.apply, excluded_fromEnvironment, Change.names, Change.forgets]
  | region | pathEncoding | normalizePath | contentHashHeader | signSecurityToken =>
    simp [Change.apply, withRegion, withPathEncoding, withNormalizePath, withContentHashHeader,
      withSignSecurityToken, Change.names, Change.forgets]

lemma isNamed_append_singleton : IsNamed (changes ++ [ch]) name ↔
    name ∈ ch.names ∨ ch.forgets = false ∧ IsNamed changes name := by
  constructor
  · rintro (⟨h, hkept⟩ | ⟨before, other, later, hchanges, hname, hkept⟩)
    · rw [List.forall_mem_append] at hkept
      exact .inr ⟨hkept.2 ch (by simp), .start h hkept.1⟩
    · rcases List.eq_nil_or_concat' later with rfl | ⟨later, last, rfl⟩
      · obtain ⟨-, hch⟩ := List.append_inj' hchanges rfl
        exact .inl ((List.cons.inj hch).1 ▸ hname)
      · rw [← List.cons_append, ← List.append_assoc] at hchanges
        obtain ⟨hchanges, hch⟩ := List.append_inj' hchanges rfl
        rw [List.forall_mem_append] at hkept
        exact .inr ⟨(List.cons.inj hch).1 ▸ hkept.2 last (by simp),
          .change before other later hchanges hname hkept.1⟩
  · rintro (hname | ⟨hforgets, hnamed⟩)
    · exact .change changes ch [] rfl hname (by simp)
    · cases hnamed with
      | start h hkept =>
        exact .start h (List.forall_mem_append.2 ⟨hkept, by simpa using hforgets⟩)
      | change before other later hchanges hname hkept =>
        exact .change before other (later ++ [ch]) (by simp [hchanges]) hname
          (List.forall_mem_append.2 ⟨hkept, by simpa using hforgets⟩)

lemma isNamed_nil : IsNamed [] name ↔ name ∈ defaultExcluded := by
  constructor
  · rintro (⟨h, -⟩ | ⟨before, ch, later, hchanges, -⟩)
    · exact h
    · simp at hchanges
  · exact fun h => .start h nofun

lemma lower_of_mem_defaultExcluded (h : name ∈ defaultExcluded) : Ascii.lower name = name := by
  revert name
  decide

/-- **A whole history** leaves out what was named and not forgotten since. -/
lemma mem_excluded_after (service region : String) :
    m ∈ ((forService service region).after changes).excluded ↔
      ∃ name, IsNamed changes name ∧ Ascii.lower name = m := by
  induction changes using List.reverseRecOn with
  | nil =>
    simp only [isNamed_nil]
    constructor
    · exact fun h => ⟨m, h, lower_of_mem_defaultExcluded h⟩
    · rintro ⟨name, h, rfl⟩
      rwa [lower_of_mem_defaultExcluded h]
  | append_singleton changes ch ih =>
    rw [after_append_singleton, mem_excluded_apply, ih]
    simp only [isNamed_append_singleton, or_and_right, exists_or, and_assoc, exists_and_left]

lemma isUpper_eq_false_of_mem_excluded {service region : String}
    (h : m ∈ ((forService service region).after changes).excluded) {letter : Char}
    (hletter : letter ∈ m.toList) : letter.isUpper = false := by
  obtain ⟨name, -, rfl⟩ := (mem_excluded_after service region).1 h
  rw [Ascii.toList_lower] at hletter
  obtain ⟨original, -, rfl⟩ := List.mem_map.1 hletter
  exact Char.isUpper_toLower_eq_false original

lemma isExcluded_after_iff (service region : String) :
    ((forService service region).after changes).isExcluded (Ascii.lower name) = true ↔
      ∃ other, IsNamed changes other ∧ Ascii.sameLetters other name = true := by
  rw [isExcluded, List.contains_iff_mem, mem_excluded_after]
  simp [Ascii.sameLetters]

lemma isExcluded_exclude (c : Config) (name m : String) :
    (c.exclude name).isExcluded m = false ↔ c.isExcluded m = false ∧ m ≠ Ascii.lower name := by
  simp [isExcluded, Config.exclude]

end Config

namespace Canonical

variable {c : Config} {r : Request} {lines : List (String × String)}

lemma IsListingOf.exclude (h : IsListingOf c r lines) (name : String) :
    IsListingOf (c.exclude name) r (lines.filter fun line => line.1 ≠ Ascii.lower name) where
  ascending := h.ascending.filter _
  names_iff m := by
    have hline : m ∈ (lines.filter fun line => line.1 ≠ Ascii.lower name).map Prod.fst ↔
        m ∈ lines.map Prod.fst ∧ m ≠ Ascii.lower name := by
      simp only [List.mem_map, List.mem_filter, decide_eq_true_eq]
      constructor
      · rintro ⟨line, ⟨hline, hne⟩, rfl⟩
        exact ⟨⟨line, hline, rfl⟩, hne⟩
      · rintro ⟨⟨line, hline, rfl⟩, hne⟩
        exact ⟨line, ⟨hline, hne⟩, rfl⟩
    rw [hline, h.names_iff]
    simp only [Config.isExcluded_exclude]
    tauto
  values n line hline hname := h.values n line (List.mem_of_mem_filter hline) hname

end Canonical

namespace Request

variable {r s : Request} {name value : String}

lemma exists_of_hasHeader (h : r.hasHeader name = true) :
    ∃ n : Http.HeaderName, n.text = Ascii.lower name ∧ n ∈ r.headers.names := by
  unfold hasHeader at h
  split at h
  · next n hn =>
    exact ⟨n, Http.HeaderName.text_of_ofText? hn,
      by rwa [Http.Headers.mem_names, ← Http.Headers.contains_iff]⟩
  · cases h

lemma hasHeader_of_appendHeader (h : r.appendHeader name value = .ok s) :
    s.hasHeader name = true := by
  obtain ⟨n, hn, h⟩ := Outcome.bind_eq_ok.1 h
  obtain ⟨v, -, rfl⟩ := addText_eq_ok.1 h
  rw [hasHeader, readName_eq_ok.1 hn]
  simp [Http.Headers.contains_iff]

end Request

namespace CanonicalRequest

variable {c : Config} {r : Request} {hash : String} {a : CanonicalRequest}

lemma ofRequest_exclude (h : ofRequest c r hash = .ok a) (name : String) :
    ofRequest (c.exclude name) r hash =
      .ok { a with headers := a.headers.filter fun line => line.1 ≠ Ascii.lower name } := by
  obtain ⟨hpath, hheaders, hmethod, hquery, hhash⟩ := ofRequest_eq_ok h
  have hpath' : Canonical.path (c.exclude name) r = .ok a.path := by
    rw [← hpath]
    exact Canonical.path_congr rfl rfl rfl
  have hheaders' := Canonical.headers_eq_ok_iff.2
    ((Canonical.headers_eq_ok_iff.1 hheaders).exclude name)
  rw [ofRequest, hpath', Outcome.ok_bind, hheaders', Outcome.ok_bind, ← hmethod, ← hquery, ← hhash]
  rfl

lemma not_mem_headers_iff (h : ofRequest c r hash = .ok a) {name : String}
    (hname : r.hasHeader name = true) :
    Ascii.lower name ∉ a.headers.map Prod.fst ↔ c.isExcluded (Ascii.lower name) = true := by
  obtain ⟨n, htext, hn⟩ := Request.exists_of_hasHeader hname
  rw [← htext, Canonical.mem_headers_fst (ofRequest_eq_ok h).2.1, Canonical.signedNames,
    List.mem_filter]
  simp [hn]

open Config (Change IsNamed forService)

end CanonicalRequest

end SigV4
