import SigV4.Proofs.Http.Uri
import SigV4.Request.Basic

/-!
Putting a request back into a head.

Whether a request can be put back is decided before the head is touched, since only its target
can fail to be written and the target is written first. A request that was taken from a head
and got other headers goes back without loss: the head is then read as that request again, and
keeps its target if nothing was missing in it.
-/

namespace SigV4.Request

open Http (Head Headers Uri PathAndQuery)

/-- The target that the head comes to have, which is its own one unless the request says
something else. -/
def targetFor (r : Request) (head : Head) : Except Error Uri :=
  if r.targetDiffers head then r.uri else .ok head.uri

/-- The head that the request makes of a head. -/
def putBack (r : Request) (head : Head) : Except Error Head :=
  (r.targetFor head).map fun uri => ⟨r.method, uri, r.headers⟩

lemma putBack_of_targetDiffers {r : Request} {head : Head} {differs : Bool}
    (h : r.targetDiffers head = differs) :
    r.putBack head =
      (if differs then r.uri else .ok head.uri).map fun uri => ⟨r.method, uri, r.headers⟩ := by
  rw [putBack, targetFor, h]

lemma putBack_eq_error {r : Request} {head : Head} {e : Error} :
    r.putBack head = .error e ↔ r.targetDiffers head = true ∧ r.uri = .error e := by
  cases h : r.targetDiffers head with
  | false => simp [putBack_of_targetDiffers h, Except.map]
  | true =>
    cases huri : r.uri with
    | error e' => simp [putBack_of_targetDiffers h, huri, Except.map]
    | ok uri => simp [putBack_of_targetDiffers h, huri, Except.map]

/-- **A request is put back as a whole or not at all.** -/
lemma apply_run (r : Request) (head : Head) :
    r.apply.run head = Outcome.commit (r.putBack head) head := by
  change (ite (r.targetDiffers head = true) _ _ : ExceptT Error (StateM Head) Unit).run head = _
  cases h : r.targetDiffers head with
  | false =>
    rw [putBack_of_targetDiffers h]
    rfl
  | true =>
    rw [putBack_of_targetDiffers h]
    cases huri : r.uri with
    | error e => rfl
    | ok uri => rfl

lemma uri_of_slash {r : Request} (hpath : r.path = "/") (hquery : r.query = []) :
    r.uri = (Uri.ofParts (r.authority.map fun _ => r.scheme) r.authority
      (some ⟨"/", none⟩)).mapError .uriMalformed := by
  have hslash : PathAndQuery.parse (utf8 ("/" ++ Query.render [])) = .ok ⟨"/", none⟩ := by decide
  rw [uri, hpath, hquery, if_neg (by decide), hslash]
  rfl

lemma uri_ofHead {head : Head} (h : head.uri.target? = none) (payload : Payload)
    (headers : Headers) :
    ({ ofHead head payload with headers } : Request).uri = .ok head.uri.completed := by
  have hquery : Query.parse "" = [] := by decide
  rw [uri_of_slash (by simp [ofHead, h, PathAndQuery.pathOrSlash]) (by simp [ofHead, h, hquery])]
  cases ha : head.uri.authority? with
  | some a =>
    rw [Uri.completed_of_authority? h ha]
    simp [ofHead, ha, Uri.scheme?_eq_none h, Uri.ofParts, Except.mapError]
  | none =>
    rw [Uri.completed_of_none h ha]
    simp [ofHead, ha, Uri.ofParts, Except.mapError]

/-- **A request that got other headers goes back to a head with them**, whose target is the
completed one. -/
lemma putBack_ofHead (head : Head) (payload : Payload) (headers : Headers) :
    ({ ofHead head payload with headers } : Request).putBack head =
      .ok ⟨head.method, head.uri.completed, headers⟩ := by
  cases h : head.uri.target? with
  | some p =>
    have hsame : ({ ofHead head payload with headers } : Request).targetDiffers head = false := by
      simp [targetDiffers, ofHead, Uri.path, Uri.query?, h]
    rw [putBack_of_targetDiffers hsame, Uri.completed_of_target? h]
    rfl
  | none =>
    -- The head has no path, and the request has a slash.
    have hdiffers : ({ ofHead head payload with headers } : Request).targetDiffers head = true := by
      simp [targetDiffers, ofHead, Uri.path, h, PathAndQuery.pathOrSlash]
    rw [putBack_of_targetDiffers hdiffers, if_pos rfl, uri_ofHead h]
    rfl

lemma ofHead_completed (head : Head) (payload : Payload) (headers : Headers) :
    ofHead ⟨head.method, head.uri.completed, headers⟩ payload =
      { ofHead head payload with headers } := by
  obtain ⟨htarget, hauthority, hscheme⟩ := head.uri.parts_completed
  simp only [ofHead, htarget, hauthority, hscheme, Option.getD_some]

end SigV4.Request
