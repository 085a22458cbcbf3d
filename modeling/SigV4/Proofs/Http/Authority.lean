import Mathlib.Data.List.TakeWhile
import Mathlib.Tactic.Lemma
import SigV4.Http.Uri

/-!
Host and port without the user.

The user information of an authority ends at its last `@`. The host is read after that mark. The
port is read after the last colon, which may belong to the user information; then the mark is
among what should be digits, and there is no port. So both are those of the authority without
its user.
-/

namespace SigV4.Http.Authority

variable {c x : Char} {s t : List Char}

lemma not_mem_afterLast (c : Char) (s : List Char) : c ∉ afterLast c s := by
  intro h
  rw [afterLast, List.mem_reverse] at h
  have := List.mem_takeWhile_imp h
  simp at this

lemma afterLast_append_of_mem (h : c ∈ t) : afterLast c (s ++ t) = afterLast c t := by
  have hstop : ¬∀ x ∈ t.reverse, (x != c) = true := fun hall => by
    have := hall c (List.mem_reverse.2 h)
    simp at this
  rw [afterLast, afterLast, List.reverse_append, List.takeWhile_append, if_neg ?_]
  intro hlength
  exact hstop (List.takeWhile_eq_self_iff.1
    (List.IsPrefix.eq_of_length (List.takeWhile_prefix _) hlength))

lemma afterLast_append_of_not_mem (h : c ∉ t) : afterLast c (s ++ t) = afterLast c s ++ t := by
  have hpass : ∀ x ∈ t.reverse, (x != c) = true := by
    intro x hx
    rw [bne_iff_ne]
    rintro rfl
    exact h (List.mem_reverse.1 hx)
  rw [afterLast, afterLast, List.reverse_append, List.takeWhile_append_of_pos hpass,
    List.reverse_append, List.reverse_reverse]

lemma afterLast_append_cons (h : c ∉ t) : afterLast c (s ++ c :: t) = t := by
  rw [afterLast_append_of_mem List.mem_cons_self, ← List.singleton_append,
    afterLast_append_of_not_mem h]
  simp [afterLast]

lemma afterLast_eq_self (h : c ∉ s) : afterLast c s = s := by
  simpa [afterLast] using afterLast_append_of_not_mem (s := []) h

/-! ### The host -/

lemma not_mem_host (a : Authority) : '@' ∉ a.host.toList := by
  have hmark : '@' ∉ a.hostPort := not_mem_afterLast _ _
  unfold host
  split
  · next rest hbracket =>
    rw [hbracket] at hmark
    intro h
    rw [String.toList_ofList] at h
    simp only [List.mem_cons, List.mem_append, List.not_mem_nil, or_false] at h
    rcases h with h | h | h
    · revert h; decide
    · exact hmark (List.mem_cons_of_mem _ ((List.takeWhile_prefix _).subset h))
    · revert h; decide
  · intro h
    rw [String.toList_ofList] at h
    exact hmark ((List.takeWhile_prefix _).subset h)

lemma host_of_user (user : String) {rest : String} (h : '@' ∉ rest.toList) :
    host ⟨user ++ "@" ++ rest⟩ = host ⟨rest⟩ := by
  have hports : hostPort ⟨user ++ "@" ++ rest⟩ = hostPort ⟨rest⟩ := by
    rw [hostPort, hostPort, String.toList_append, String.toList_append, afterLast_eq_self h,
      List.append_assoc]
    exact afterLast_append_cons h
  rw [host, host, hports]

/-! ### The port -/

lemma number?_eq_none (hx : x ∈ s) (hdigit : x.isDigit = false) : number? s = none := by
  have hnone : ∀ s : List Char, s.foldl (fun (n : Option Nat) c =>
      if c.isDigit then n.map (10 * · + (c.toNat - 48)) else none) none = none := by
    intro s
    induction s with
    | nil => rfl
    | cons y ys ih => rw [List.foldl_cons]; split <;> exact ih
  -- Once a character is no digit, the rest cannot bring the number back.
  obtain ⟨before, after, rfl⟩ := List.append_of_mem hx
  rw [number?, List.foldl_append, List.foldl_cons, hdigit]
  exact hnone after

lemma port?_eq_some {a : Authority} {p : Nat} (h : a.port? = some p) :
    ∃ ds, (afterLast ':' a.text.toList = ds ∨ afterLast ':' a.text.toList = '+' :: ds) ∧
      number? ds = some p ∧ p < 65536 := by
  have hnumber : ∀ ds : List Char,
      (if ds.isEmpty then none else (number? ds).filter (· < 65536)) = some p →
        number? ds = some p ∧ p < 65536 := by
    intro ds hds
    split at hds
    · cases hds
    · simpa using Option.filter_eq_some_iff.1 hds
  unfold port? at h
  simp only at h
  split at h
  · split at h
    · next ds hds => exact ⟨ds, .inr hds, hnumber ds h⟩
    · exact ⟨_, .inl rfl, hnumber _ h⟩
  · cases h

lemma port?_eq_none {a : Authority} (hx : x ∈ afterLast ':' a.text.toList) (hplus : x ≠ '+')
    (hdigit : x.isDigit = false) : a.port? = none := by
  cases hport : a.port? with
  | none => rfl
  | some p =>
    obtain ⟨ds, hds, hnumber, -⟩ := port?_eq_some hport
    have hmem : x ∈ ds := by
      rcases hds with hds | hds
      · exact hds ▸ hx
      · rw [hds] at hx
        exact (List.mem_cons.1 hx).resolve_left hplus
    rw [number?_eq_none hmem hdigit] at hnumber
    cases hnumber

lemma port?_of_user (user rest : String) : port? ⟨user ++ "@" ++ rest⟩ = port? ⟨rest⟩ := by
  have htext : (user ++ "@" ++ rest).toList = user.toList ++ '@' :: rest.toList := by
    simp [String.toList_append]
  by_cases hcolon : ':' ∈ rest.toList
  · -- The last colon stands after the user.
    have hlast : afterLast ':' (user.toList ++ '@' :: rest.toList) = afterLast ':' rest.toList := by
      rw [← List.singleton_append, ← List.append_assoc, afterLast_append_of_mem hcolon]
    have hboth : (user.toList ++ '@' :: rest.toList).contains ':' = rest.toList.contains ':' := by
      simp [hcolon]
    unfold port?
    simp only [htext, hlast, hboth]
  · have hnone : port? ⟨rest⟩ = none := by
      simp [port?, hcolon]
    rw [hnone]
    -- The mark follows the last colon, if there is one at all.
    refine port?_eq_none (x := '@') ?_ (by decide) (by decide)
    have hcolon' : ':' ∉ '@' :: rest.toList := by simpa using hcolon
    rw [htext, afterLast_append_of_not_mem hcolon']
    simp

end SigV4.Http.Authority
