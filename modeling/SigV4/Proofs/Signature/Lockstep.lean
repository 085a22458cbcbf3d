import SigV4.Proofs.Request.Resembles
import SigV4.Proofs.Signature.Stages

/-!
Two requests side by side.

The groundwork looks at the payload, at the authority, at the payload hash and the announced
trailers, and at whether a few names have a value; and it edits headers without regard to what was
there. So a relation between requests that settles what is looked at, and is kept by an edit made
on both sides, is carried along: both requests fail, for one cause, or are related again.
-/

namespace SigV4.Signer

open Http (HeaderName HeaderValue)
open Outcome (Alike)
open Request (Resembles SameBut)

variable {names loose : List HeaderName} {R : Request → Request → Prop} {c d : Config}
  {r s : Request} {directive : Option Checksum.Directive}

/-- A relation between requests that the groundwork carries along, where no other names than
these are looked for. -/
structure Lockstep (names : List HeaderName) (R : Request → Request → Prop) : Prop where
  payload : ∀ {r s}, R r s → s.payload = r.payload
  authority : ∀ {r s}, R r s → s.authority = r.authority
  present : ∀ {r s}, R r s → ∀ n ∈ names, s.headers.contains n = r.headers.contains n
  read : ∀ {r s}, R r s → ∀ n ∈ Request.readNames,
    (s.headers.values n).map HeaderValue.octets = (r.headers.values n).map HeaderValue.octets
  insert : ∀ {r s}, R r s → ∀ n v, R { r with headers := r.headers.insert n v }
    { s with headers := s.headers.insert n v }
  append : ∀ {r s}, R r s → ∀ v, R { r with headers := r.headers.append .trailer v }
    { s with headers := s.headers.append .trailer v }

lemma lockstep_resembles (names : List HeaderName) (c : Config) (loose : List HeaderName) :
    Lockstep names (Resembles c loose) where
  payload h := h.payload
  authority h := h.authority
  present h n _ := h.present n
  read h := h.read
  insert h n v := (h.mono (List.subset_cons_self n loose)).insert v
  append h v := h.append (by decide) v

lemma lockstep_sameBut (hnames : ∀ n ∈ names, n ∉ loose)
    (hread : ∀ n ∈ Request.readNames, n ∉ loose) : Lockstep names (SameBut loose) where
  payload h := h.payload
  authority h := h.authority
  present h n hn := Http.Headers.contains_congr (h.values n (hnames n hn))
  read h n hn := congrArg _ (h.values n (hread n hn))
  insert h n v := (h.mono (List.subset_cons_self n loose)).insert v
  append h v := h.append v

namespace Lockstep

lemma putText_alike (hR : Lockstep names R) (h : R r s) (n : HeaderName) (value : String) :
    Alike R (r.putText n value) (s.putText n value) :=
  Request.alike_putText (hR.insert h n) value

lemma hasHeader_eq (hR : Lockstep names R) (h : R r s) {name : String}
    (hname : ∀ n, HeaderName.ofText? name = some n → n ∈ names) :
    s.hasHeader name = r.hasHeader name := by
  unfold Request.hasHeader
  cases hn : HeaderName.ofText? name with
  | none => rfl
  | some n => exact hR.present h n (hname n hn)

end Lockstep

lemma isAnnounced_congr (name : String) {vs ws : List HeaderValue}
    (h : vs.map HeaderValue.octets = ws.map HeaderValue.octets) :
    Integrity.isAnnounced name vs = Integrity.isAnnounced name ws := by
  induction vs generalizing ws with
  | nil => rw [List.map_eq_nil_iff.1 h.symm]
  | cons v vs ih =>
    obtain ⟨w, ws, rfl, hw, hws⟩ := List.map_eq_cons_iff.1 h.symm
    rw [Integrity.isAnnounced, Integrity.isAnnounced, Request.readValue_congr hw, ih hws.symm]

lemma integrate_alike (hR : Lockstep names R) (hnames : guardNames directive ⊆ names) (h : R r s) :
    Alike R (integrate directive r).result (integrate directive s).result := by
  cases directive with
  | none => exact .ok h
  | some d =>
    simp only [integrate, Integrity.integrate]
    cases hplace : d.placement with
    | header =>
      have hname : ∀ n, HeaderName.ofText? d.headerName = some n → n ∈ names := fun n hn =>
        hnames (by simp [guardNames, hplace, hn])
      simp only [Integrity.addHeader_result, hR.hasHeader_eq h hname, hR.payload h]
      split
      · exact .ok h
      · exact .bind_of_eq rfl fun value => .bind_of_eq rfl fun n => hR.putText_alike h n value
    | trailer =>
      simp only [Integrity.announceTrailer_result]
      have hannounced := isAnnounced_congr d.headerName (hR.read h .trailer (by decide))
      refine .bind_of_eq hannounced.symm fun announced => ?_
      split
      · exact .ok h
      · exact .bind_of_eq rfl fun v => .ok (hR.append h v)

lemma resolveHash_alike (hR : Lockstep names R)
    (hconfig : d.contentHashHeader = c.contentHashHeader) (h : R r s) (hasTrailer : Bool) :
    Alike (fun p q => R p.1 q.1 ∧ p.2 = q.2) (Integrity.resolveHash c hasTrailer r)
      (Integrity.resolveHash d hasTrailer s) := by
  have hexisting := Request.getText_congr_octets (hR.read h .contentHash (by decide))
  unfold Integrity.resolveHash
  refine .bind_of_eq hexisting.symm fun existing => ?_
  cases existing.filter fun v => !Ascii.sameLetters v Integrity.placeholder with
  | some hash => exact .ok ⟨h, rfl⟩
  | none =>
    simp only [hR.payload h, hconfig]
    split
    · exact (hR.putText_alike h _ _).bind fun _ _ hput => .ok ⟨hput, rfl⟩
    · exact .ok ⟨h, rfl⟩

lemma addHost_alike (hR : Lockstep names R) (hnames : HeaderName.host ∈ names) (h : R r s) :
    Alike R (addHost r) (addHost s) := by
  unfold addHost
  rw [hR.present h _ hnames, hR.authority h]
  split
  · exact .ok h
  · cases r.authority with
    | none => exact .error _
    | some a => exact hR.putText_alike h .host (hostText a)

/-- **The groundwork is laid on both sides, or on neither.** -/
lemma groundwork_alike (hR : Lockstep names R) (hguard : guardNames directive ⊆ names)
    (hhost : HeaderName.host ∈ names) (hconfig : d.contentHashHeader = c.contentHashHeader)
    (h : R (strip c r) (strip d s)) :
    Alike (fun p q => R p.1 q.1 ∧ p.2 = q.2) (groundwork c directive r)
      (groundwork d directive s) := by
  unfold groundwork
  refine (integrate_alike hR hguard h).bind fun _ _ hguarded => ?_
  refine (resolveHash_alike hR hconfig hguarded _).bind fun p q hhashed => ?_
  exact (addHost_alike hR hhost hhashed.1).bind fun _ _ hhosted => .ok ⟨hhosted, hhashed.2⟩

end SigV4.Signer
