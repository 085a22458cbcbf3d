import SigV4.Proofs.Http.Headers
import SigV4.Proofs.Outcome
import SigV4.Request.Basic

/-!
Requests that differ in a few headers at most.

What a step does to a request is told by naming the headers it may touch: all the others keep
their values, and whatever is not a header stays as it is. With no header named, two requests
say the same, though their headers may come in another order.
-/

namespace SigV4.Request

open Http (HeaderName HeaderValue)

lemma writeValue_eq_ok {value : String} {v : HeaderValue} :
    writeValue value = .ok v ↔ HeaderValue.ofText? value = some v := by
  unfold writeValue
  cases HeaderValue.ofText? value with
  | none => simp
  | some w => simp

lemma readName_eq_ok {name : String} {n : HeaderName} :
    readName name = .ok n ↔ HeaderName.ofText? name = some n := by
  unfold readName
  cases HeaderName.ofText? name with
  | none => simp
  | some m => simp

lemma readValue_eq_ok {v : HeaderValue} {text : String} :
    readValue v = .ok text ↔ v.text? = some text := by
  unfold readValue
  cases v.text? with
  | none => simp
  | some t => simp

lemma putText_eq_ok {r s : Request} {n : HeaderName} {value : String} :
    r.putText n value = .ok s ↔ ∃ v, HeaderValue.ofText? value = some v ∧
      { r with headers := r.headers.insert n v } = s := by
  rw [putText, Outcome.bind_eq_ok]
  simp only [writeValue_eq_ok, pure, Except.pure, Except.ok.injEq]

lemma addText_eq_ok {r s : Request} {n : HeaderName} {value : String} :
    r.addText n value = .ok s ↔ ∃ v, HeaderValue.ofText? value = some v ∧
      { r with headers := r.headers.append n v } = s := by
  rw [addText, Outcome.bind_eq_ok]
  simp only [writeValue_eq_ok, pure, Except.pure, Except.ok.injEq]

/-- **A text put on both sides keeps what any value put there keeps**, or is no header value on
either. -/
lemma alike_putText {R : Request → Request → Prop} {r s : Request} {n : HeaderName}
    (h : ∀ v, R { r with headers := r.headers.insert n v }
      { s with headers := s.headers.insert n v }) (value : String) :
    Outcome.Alike R (r.putText n value) (s.putText n value) := by
  unfold putText
  exact .bind_of_eq rfl fun v => .ok (h v)

/-- The requests agree but for the values of some header names. -/
structure SameBut (loose : List HeaderName) (r s : Request) : Prop where
  rest : s = { r with headers := s.headers }
  values : ∀ n ∉ loose, s.headers.values n = r.headers.values n

namespace SameBut

variable {loose loose' : List HeaderName} {r s t : Request} {n : HeaderName}

lemma refl (loose : List HeaderName) (r : Request) : SameBut loose r r :=
  ⟨rfl, fun _ _ => rfl⟩

lemma method (h : SameBut loose r s) : s.method = r.method := by rw [h.rest]

lemma authority (h : SameBut loose r s) : s.authority = r.authority := by rw [h.rest]

lemma path (h : SameBut loose r s) : s.path = r.path := by rw [h.rest]

lemma query (h : SameBut loose r s) : s.query = r.query := by rw [h.rest]

lemma payload (h : SameBut loose r s) : s.payload = r.payload := by rw [h.rest]

lemma symm (h : SameBut loose r s) : SameBut loose s r := by
  refine ⟨?_, fun n hn => (h.values n hn).symm⟩
  rw [h.rest]

lemma trans (h : SameBut loose r s) (h' : SameBut loose s t) : SameBut loose r t := by
  refine ⟨?_, fun n hn => (h'.values n hn).trans (h.values n hn)⟩
  rw [h'.rest, h.rest]

lemma mono (h : SameBut loose r s) (hsub : loose ⊆ loose') : SameBut loose' r s :=
  ⟨h.rest, fun n hn => h.values n fun hmem => hn (hsub hmem)⟩

lemma tighten (h : SameBut (n :: loose) r s) (hn : s.headers.values n = r.headers.values n) :
    SameBut loose r s := by
  refine ⟨h.rest, fun m hm => ?_⟩
  by_cases hmn : m = n
  · rw [hmn, hn]
  · exact h.values m (by simp [hmn, hm])

lemma insert_right (r : Request) (n : HeaderName) (v : HeaderValue) :
    SameBut [n] r { r with headers := r.headers.insert n v } :=
  ⟨rfl, fun m hm => Http.Headers.values_insert_of_ne _ _ _ _ fun h => hm (by simp [h])⟩

lemma append_right (r : Request) (n : HeaderName) (v : HeaderValue) :
    SameBut [n] r { r with headers := r.headers.append n v } :=
  ⟨rfl, fun m hm => Http.Headers.values_append_of_ne _ _ _ _ fun h => hm (by simp [h])⟩

lemma erase_right (r : Request) (n : HeaderName) :
    SameBut [n] r { r with headers := r.headers.erase n } :=
  ⟨rfl, fun m hm => Http.Headers.values_erase_of_ne _ _ _ fun h => hm (by simp [h])⟩

lemma insert (h : SameBut (n :: loose) r s) (v : HeaderValue) :
    SameBut loose { r with headers := r.headers.insert n v }
      { s with headers := s.headers.insert n v } := by
  have hnew : SameBut (n :: loose) { r with headers := r.headers.insert n v }
      { s with headers := s.headers.insert n v } := by
    have hr : SameBut (n :: loose) r { r with headers := r.headers.insert n v } :=
      (insert_right r n v).mono (by simp)
    have hs : SameBut (n :: loose) s { s with headers := s.headers.insert n v } :=
      (insert_right s n v).mono (by simp)
    exact hr.symm.trans (h.trans hs)
  refine hnew.tighten ?_
  rw [Http.Headers.values_insert_self, Http.Headers.values_insert_self]

lemma append (h : SameBut loose r s) (v : HeaderValue) :
    SameBut loose { r with headers := r.headers.append n v }
      { s with headers := s.headers.append n v } := by
  refine ⟨?_, fun m hm => ?_⟩
  · rw [h.rest]
  · rw [Http.Headers.values_append, Http.Headers.values_append, h.values m hm]

lemma of_putText {value : String} (h : r.putText n value = .ok s) : SameBut [n] r s := by
  obtain ⟨v, -, rfl⟩ := putText_eq_ok.1 h
  exact insert_right r n v

lemma putText_alike (h : SameBut (n :: loose) r s) (value : String) :
    Outcome.Alike (SameBut loose) (r.putText n value) (s.putText n value) :=
  alike_putText h.insert value

end SameBut

end SigV4.Request
