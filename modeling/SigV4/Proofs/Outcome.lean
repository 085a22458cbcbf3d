import Mathlib.Tactic.Lemma
import SigV4.Log

/-!
Computations that may fail, taken apart and set side by side.

A computation made of two comes to a value exactly if both do. Two computations run alike if
both fail, for one cause, or both come to values that are related; alike parts make alike
wholes. A computation that is to replace a state is committed: a failure leaves the state as it
was.
-/

namespace SigV4.Outcome

variable {ε α β γ δ : Type}

lemma bind_eq_ok {x : Except ε α} {f : α → Except ε β} {b : β} :
    x >>= f = .ok b ↔ ∃ a, x = .ok a ∧ f a = .ok b := by
  cases x with
  | error e => simp [bind, Except.bind]
  | ok a => simp [bind, Except.bind]

@[simp] lemma ok_bind (a : α) (f : α → Except ε β) : (.ok a : Except ε α) >>= f = f a := rfl

lemma bind_eq_error {x : Except ε α} {f : α → Except ε β} {e : ε} :
    x >>= f = .error e ↔ x = .error e ∨ ∃ a, x = .ok a ∧ f a = .error e := by
  cases x with
  | error e' => simp [bind, Except.bind]
  | ok a => simp [bind, Except.bind]

lemma map_eq_ok {x : Except ε α} {f : α → β} {b : β} :
    x.map f = .ok b ↔ ∃ a, x = .ok a ∧ f a = b := by
  cases x with
  | error e => simp [Except.map]
  | ok a => simp [Except.map]

lemma mapError_eq_ok {ζ : Type} {x : Except ε α} {f : ε → ζ} {a : α} :
    x.mapError f = .ok a ↔ x = .ok a := by
  cases x with
  | error e => exact ⟨nofun, nofun⟩
  | ok b => constructor <;> rintro ⟨⟩ <;> rfl

lemma mapM_eq_ite {f : α → Except Error β} {p : α → Prop} [DecidablePred p] {g : α → β} {e : Error}
    (hf : ∀ a, f a = if p a then .ok (g a) else .error e) (as : List α) :
    as.mapM f = if ∀ a ∈ as, p a then .ok (as.map g) else .error e := by
  induction as with
  | nil => rfl
  | cons a as ih =>
    rw [List.mapM_cons, ih, hf]
    by_cases ha : p a
    · by_cases has : ∀ a ∈ as, p a
      · rw [if_pos ha, if_pos has, if_pos (List.forall_mem_cons.2 ⟨ha, has⟩)]
        rfl
      · rw [if_pos ha, if_neg has, if_neg fun h => has (List.forall_mem_cons.1 h).2]
        rfl
    · rw [if_neg ha, if_neg fun h => ha (List.forall_mem_cons.1 h).1]
      rfl

/-- The state that a computation came to, or the one before it if it failed. -/
def commit {σ : Type} (x : Except ε σ) (s : σ) : Except ε Unit × σ :=
  match x with
  | .ok s' => (.ok (), s')
  | .error e => (.error e, s)

section Commit

variable {σ : Type} {x : Except ε σ} {s s' : σ} {e : ε}

lemma commit_eq_ok : commit x s = (.ok (), s') ↔ x = .ok s' := by
  cases x with
  | error e' => simp [commit]
  | ok t => simp [commit]

lemma commit_eq_error : commit x s = (.error e, s') ↔ s' = s ∧ x = .error e := by
  cases x with
  | error e' => simp [commit, eq_comm, and_comm]
  | ok t => simp [commit]

end Commit

/-- Two computations that fail for one cause, or come to related values. -/
inductive Alike (R : α → β → Prop) : Except Error α → Except Error β → Prop
  | error (e : Error) : Alike R (.error e) (.error e)
  | ok {a : α} {b : β} (h : R a b) : Alike R (.ok a) (.ok b)

namespace Alike

variable {R : α → β → Prop} {S : γ → δ → Prop}

lemma bind {x : Except Error α} {y : Except Error β} {f : α → Except Error γ}
    {g : β → Except Error δ} (h : Alike R x y) (hfg : ∀ a b, R a b → Alike S (f a) (g b)) :
    Alike S (x >>= f) (y >>= g) := by
  cases h with
  | error e => exact .error e
  | ok h => exact hfg _ _ h

lemma bind_of_eq {x y : Except Error α} {f : α → Except Error γ} {g : α → Except Error δ}
    (h : x = y) (hfg : ∀ a, Alike S (f a) (g a)) : Alike S (x >>= f) (y >>= g) := by
  subst h
  cases x with
  | error e => exact .error e
  | ok a => exact hfg a

lemma of_eq {R : α → α → Prop} (hR : ∀ a, R a a) {x y : Except Error α} (h : x = y) :
    Alike R x y := by
  subst h
  cases x with
  | error e => exact .error e
  | ok a => exact .ok (hR a)

lemma trans {T : α → γ → Prop} {S : β → γ → Prop} {x : Except Error α} {y : Except Error β}
    {z : Except Error γ} (hT : ∀ a b c, R a b → S b c → T a c) (h₁ : Alike R x y)
    (h₂ : Alike S y z) : Alike T x z := by
  cases h₁ with
  | error e => cases h₂; exact .error e
  | ok h => cases h₂ with | ok h' => exact .ok (hT _ _ _ h h')

lemma rel_of_ok {a : α} {b : β} {x : Except Error α} {y : Except Error β} (h : Alike R x y)
    (hx : x = .ok a) (hy : y = .ok b) : R a b := by
  subst hx hy
  cases h with | ok h => exact h

lemma map_eq {x : Except Error α} {y : Except Error β} {f : α → γ} {g : β → γ} (h : Alike R x y)
    (hfg : ∀ a b, R a b → f a = g b) : x.map f = y.map g := by
  cases h with
  | error e => rfl
  | ok h => exact congrArg Except.ok (hfg _ _ h)

end Alike

end SigV4.Outcome
