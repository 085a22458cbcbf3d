import Mathlib.Tactic.Lemma
import SigV4.Checksum.Directive

/-!
Checksums of payloads that come in pieces.

A sender that streams a payload hands it over chunk by chunk, and may look at the checksum on the
way. What it sees is the checksum of the payload so far, and looking disturbs nothing. So what is
sent after the payload does not depend on how it was cut.
-/

namespace SigV4.Checksum

/-- What is done with a checksum in the making: it takes a chunk, or a copy of it is finished. -/
inductive Step where
  | take (chunk : Octets)
  | look
  deriving DecidableEq, Repr

/-- What was taken by the time of each look, when the octets `before` were taken already. -/
def payloadsSeen (before : Octets) : List Step → List Octets
  | [] => []
  | .take chunk :: steps => payloadsSeen (before ++ chunk) steps
  | .look :: steps => before :: payloadsSeen before steps

namespace Hasher

variable {a : Algorithm} {payload : Octets} {h : Hasher}

/-- The checksums that are seen on the way. -/
def seen (h : Hasher) : List Step → List String
  | [] => []
  | .take chunk :: steps => (h.update chunk).seen steps
  | .look :: steps => h.result :: h.seen steps

/-- Takes one chunk after the other. -/
def feed (h : Hasher) (chunks : List Octets) : Hasher :=
  chunks.foldl (fun h chunk => h.update chunk) h

/-- The checksum in the making is one of this payload so far. -/
def Holds (a : Algorithm) (payload : Octets) (h : Hasher) : Prop := h = (start a).update payload

lemma holds_start (a : Algorithm) : (start a).Holds a [] := (update_nil _).symm

lemma Holds.update (hp : h.Holds a payload) (chunk : Octets) :
    (h.update chunk).Holds a (payload ++ chunk) := by
  rw [Holds, update_append, ← hp]

lemma Holds.result_eq (hp : h.Holds a payload) : h.result = a.compute payload := by
  rw [hp, result_update_start]

lemma Holds.feed (hp : h.Holds a payload) (chunks : List Octets) :
    (h.feed chunks).Holds a (payload ++ chunks.flatten) := by
  induction chunks generalizing h payload with
  | nil => rwa [List.flatten_nil, List.append_nil]
  | cons chunk chunks ih =>
    rw [List.flatten_cons, ← List.append_assoc]
    exact ih (hp.update chunk)

lemma Holds.seen_eq (hp : h.Holds a payload) (steps : List Step) :
    h.seen steps = (payloadsSeen payload steps).map a.compute := by
  induction steps generalizing h payload with
  | nil => rfl
  | cons step steps ih =>
    cases step with
    | take chunk => exact ih (hp.update chunk)
    | look => rw [seen, payloadsSeen, List.map_cons, hp.result_eq, ih hp]

/-- **Checksums do not depend on how a payload is cut.** Whenever a checksum in the making is looked
at, it is the one of what was taken until then, whatever was looked at before; and chunks that make
up the same payload are followed by the same line. -/
theorem checksums_of_chunks (a : Algorithm) :
    (∀ steps, (start a).seen steps = (payloadsSeen [] steps).map a.compute) ∧
      ∀ chunks, ((start a).feed chunks).result = a.compute chunks.flatten ∧
        ∀ others, others.flatten = chunks.flatten → ∀ d : Directive,
          d.trailerLine ((start a).feed others).result =
            d.trailerLine ((start a).feed chunks).result := by
  have hfeed : ∀ chunks, ((start a).feed chunks).result = a.compute chunks.flatten := fun chunks =>
    ((holds_start a).feed chunks).result_eq
  refine ⟨(holds_start a).seen_eq, fun chunks => ⟨hfeed chunks, fun others h d => ?_⟩⟩
  rw [hfeed others, hfeed chunks, h]

/-- A block and a half, taken at once, or cut one octet before the end of the block. -/
theorem checksums_of_chunks_at_block_end :
    let octets (n : Nat) : Octets := List.replicate n 0x61
    let whole := [octets 96]
    let cut := [octets 63, [], octets 33]
    let d := Directive.of .sha256 .trailer
    cut.flatten = whole.flatten ∧
      d.trailerLine ((start .sha256).feed cut).result =
        d.trailerLine ((start .sha256).feed whole).result := by
  intro octets whole cut d
  have h : cut.flatten = whole.flatten := by decide
  exact ⟨h, ((checksums_of_chunks .sha256).2 whole).2 cut h d⟩

end Hasher

end SigV4.Checksum
