import Mathlib.Data.List.Basic
import Mathlib.Tactic.Lemma

/-!
Pieces with a mark between them.

Joining writes a mark between pieces, and cutting at the mark takes them apart again. A mark
that no piece contains can only have been written between them, so the first piece and the
rest can be told from the whole. From the right the same holds of a longer mark, of which the
first letter alone has to be kept out of what follows. A label is a mark at least as long as what
stands before it, and then its first letter may stand there too.
-/

namespace SigV4.Joined

variable {α : Type}

lemma mem_intercalate {mark : List α} {pieces : List (List α)} {x : α}
    (h : x ∈ mark.intercalate pieces) : x ∈ mark ∨ ∃ piece ∈ pieces, x ∈ piece := by
  induction pieces with
  | nil => simp at h
  | cons p ps ih =>
    cases ps with
    | nil => exact .inr ⟨p, by simp, by simpa using h⟩
    | cons q qs =>
      rw [List.intercalate_cons_cons, List.mem_append, List.mem_append] at h
      rcases h with (h | h) | h
      · exact .inr ⟨p, by simp, h⟩
      · exact .inl h
      · rcases ih h with h | ⟨r, hr, h⟩
        · exact .inl h
        · exact .inr ⟨r, List.mem_cons_of_mem _ hr, h⟩

lemma flatMap_intercalate {β : Type} (f : α → List β) (mark : List α) (pieces : List (List α)) :
    (mark.intercalate pieces).flatMap f =
      (mark.flatMap f).intercalate (pieces.map fun piece => piece.flatMap f) := by
  induction pieces with
  | nil => rfl
  | cons p ps ih =>
    cases ps with
    | nil => simp
    | cons q qs =>
      rw [List.intercalate_cons_cons, List.flatMap_append, List.flatMap_append, ih]
      simp only [List.map_cons, List.intercalate_cons_cons]

lemma map_intercalate {β : Type} (f : α → β) (mark : List α) (pieces : List (List α)) :
    (mark.intercalate pieces).map f = (mark.map f).intercalate (pieces.map (List.map f)) := by
  have h := flatMap_intercalate (fun x => [f x]) mark pieces
  simpa only [← List.map_eq_flatMap] using h

lemma mem_intercalate_of_mem {mark : List α} {pieces : List (List α)} {piece : List α} {x : α}
    (hpiece : piece ∈ pieces) (hx : x ∈ piece) : x ∈ mark.intercalate pieces := by
  induction pieces with
  | nil => cases hpiece
  | cons p ps ih =>
    cases ps with
    | nil =>
      obtain rfl := List.mem_singleton.1 hpiece
      simpa using hx
    | cons q qs =>
      rw [List.intercalate_cons_cons, List.mem_append, List.mem_append]
      rcases List.mem_cons.1 hpiece with rfl | hpiece
      · exact .inl (.inl hx)
      · exact .inr (ih hpiece)

lemma mem_of_mem_splitOnP {p : α → Bool} {xs piece : List α} {x : α} (hp : piece ∈ xs.splitOnP p)
    (hx : x ∈ piece) : x ∈ xs := by
  induction xs generalizing piece with
  | nil =>
    rw [List.splitOnP_nil, List.mem_singleton] at hp
    subst hp
    cases hx
  | cons y ys ih =>
    rw [List.splitOnP_cons_eq_if_modifyHead] at hp
    split at hp
    · rcases List.mem_cons.1 hp with rfl | hp
      · cases hx
      · exact List.mem_cons_of_mem _ (ih hp hx)
    · obtain ⟨q, qs, hq⟩ := List.exists_cons_of_ne_nil (List.splitOnP_ne_nil p ys)
      rw [hq, List.modifyHead_cons, List.mem_cons] at hp
      rcases hp with rfl | hp
      · rcases List.mem_cons.1 hx with rfl | hx
        · exact List.mem_cons_self
        · exact List.mem_cons_of_mem _ (ih (hq ▸ List.mem_cons_self) hx)
      · exact List.mem_cons_of_mem _ (ih (hq ▸ List.mem_cons_of_mem _ hp) hx)

lemma eq_false_of_mem_splitOnP {p : α → Bool} {xs piece : List α} {x : α}
    (hp : piece ∈ xs.splitOnP p) (hx : x ∈ piece) : p x = false := by
  induction xs generalizing piece with
  | nil =>
    rw [List.splitOnP_nil, List.mem_singleton] at hp
    subst hp
    cases hx
  | cons y ys ih =>
    rw [List.splitOnP_cons_eq_if_modifyHead] at hp
    split at hp
    · rcases List.mem_cons.1 hp with rfl | hp
      · cases hx
      · exact ih hp hx
    · next hy =>
      obtain ⟨q, qs, hq⟩ := List.exists_cons_of_ne_nil (List.splitOnP_ne_nil p ys)
      rw [hq, List.modifyHead_cons, List.mem_cons] at hp
      rcases hp with rfl | hp
      · rcases List.mem_cons.1 hx with rfl | hx
        · simpa using hy
        · exact ih (hq ▸ List.mem_cons_self) hx
      · exact ih (hq ▸ List.mem_cons_of_mem _ hp) hx

lemma not_mem_of_mem_splitOn [BEq α] [ReflBEq α] {mark : α} {xs piece : List α}
    (hp : piece ∈ xs.splitOn mark) : mark ∉ piece := fun hmark => by
  have := eq_false_of_mem_splitOnP hp hmark
  simp at this

lemma exists_mem_splitOnP {p : α → Bool} {xs : List α} {x : α} (hx : x ∈ xs) (hp : p x = false) :
    ∃ piece ∈ xs.splitOnP p, x ∈ piece := by
  induction xs with
  | nil => cases hx
  | cons y ys ih =>
    rw [List.splitOnP_cons_eq_if_modifyHead]
    obtain ⟨q, qs, hq⟩ := List.exists_cons_of_ne_nil (List.splitOnP_ne_nil p ys)
    rcases List.mem_cons.1 hx with rfl | hx
    · rw [if_neg (by simp [hp]), hq]
      exact ⟨x :: q, List.mem_cons_self, List.mem_cons_self⟩
    · obtain ⟨piece, hpiece, hmem⟩ := ih hx
      split
      · exact ⟨piece, List.mem_cons_of_mem _ hpiece, hmem⟩
      · rw [hq] at hpiece ⊢
        rcases List.mem_cons.1 hpiece with rfl | hpiece
        · exact ⟨y :: piece, List.mem_cons_self, List.mem_cons_of_mem _ hmem⟩
        · exact ⟨piece, List.mem_cons_of_mem _ hpiece, hmem⟩

lemma splitOnP_map {β : Type} (f : α → β) (p : β → Bool) (xs : List α) :
    (xs.map f).splitOnP p = (xs.splitOnP (p ∘ f)).map (List.map f) := by
  induction xs with
  | nil => rfl
  | cons x xs ih =>
    obtain ⟨q, qs, hq⟩ := List.exists_cons_of_ne_nil (List.splitOnP_ne_nil (p ∘ f) xs)
    rw [List.map_cons, List.splitOnP_cons_eq_if_modifyHead, List.splitOnP_cons_eq_if_modifyHead,
      ih, hq]
    by_cases hx : p (f x) = true
    · simp [hx]
    · simp [hx]

lemma eq_and_eq_of_append_cons_eq {mark : α} {u v s t : List α} (hu : mark ∉ u) (hv : mark ∉ v)
    (h : u ++ mark :: s = v ++ mark :: t) : u = v ∧ s = t := by
  induction u generalizing v with
  | nil =>
    cases v with
    | nil => exact ⟨rfl, (List.cons.inj h).2⟩
    | cons y v => exact absurd (by simp [(List.cons.inj h).1]) hv
  | cons x u ih =>
    cases v with
    | nil => exact absurd (by simp [(List.cons.inj h).1]) hu
    | cons y v =>
      obtain ⟨hxy, htail⟩ := List.cons.inj h
      obtain ⟨huv, hst⟩ := ih (fun hx => hu (List.mem_cons_of_mem _ hx))
        (fun hx => hv (List.mem_cons_of_mem _ hx)) htail
      exact ⟨by rw [hxy, huv], hst⟩

/-- A mark that is not met again in the label behind it is not met in a longer text before the
label. -/
lemma eq_nil_of_label {mark : α} {label u s t : List α} (hlabel : mark ∉ label)
    (hu : u.length ≤ label.length) (h : mark :: (label ++ s) = u ++ mark :: (label ++ t)) :
    u = [] := by
  cases u with
  | nil => rfl
  | cons a u =>
    have hrest : label ++ s = u ++ mark :: (label ++ t) := (List.cons.inj h).2
    have hlt : u.length < label.length := hu
    have hmark : (label ++ s)[u.length]? = some mark := by
      rw [hrest, List.getElem?_append_right (Nat.le_refl _), Nat.sub_self, List.getElem?_cons_zero]
    rw [List.getElem?_append_left hlt] at hmark
    exact absurd (List.mem_of_getElem? hmark) hlabel

/-- **What stands before a label**, if it is no longer than the label, and what follows it. -/
lemma eq_and_eq_of_label {mark : α} {label u v s t : List α} (hlabel : mark ∉ label)
    (hu : u.length ≤ label.length) (hv : v.length ≤ label.length)
    (h : u ++ mark :: (label ++ s) = v ++ mark :: (label ++ t)) : u = v ∧ s = t := by
  have huv : u = v := by
    rcases List.append_eq_append_iff.1 h with ⟨w, rfl, hw⟩ | ⟨w, rfl, hw⟩
    · rw [List.length_append] at hv
      rw [eq_nil_of_label hlabel (by omega) hw, List.append_nil]
    · rw [List.length_append] at hu
      rw [eq_nil_of_label hlabel (by omega) hw, List.append_nil]
  subst huv
  exact ⟨rfl, List.append_cancel_left (List.cons.inj (List.append_cancel_left h)).2⟩

/-- A label is known by its first letter, which it has once. -/
lemma eq_and_eq_of_label_append (label : String) {x y s t : String} {mark : Char}
    {letters : List Char} (hlabel : label.toList = mark :: letters) (hmark : mark ∉ letters)
    (hx : x.length ≤ letters.length) (hy : y.length ≤ letters.length)
    (h : x ++ (label ++ s) = y ++ (label ++ t)) : x = y ∧ s = t := by
  have hlist := congrArg String.toList h
  simp only [String.toList_append, hlabel, List.cons_append] at hlist
  obtain ⟨hxy, hst⟩ := eq_and_eq_of_label hmark hx hy hlist
  exact ⟨String.toList_inj.1 hxy, String.toList_inj.1 hst⟩

lemma splitOn_toList_intercalate {sep : String} {mark : Char} {texts : List String}
    (hsep : sep.toList = [mark]) (hne : texts ≠ [])
    (hmark : ∀ text ∈ texts, mark ∉ text.toList) :
    (String.intercalate sep texts).toList.splitOn mark = texts.map String.toList := by
  have hpieces : ∀ piece ∈ texts.map String.toList, mark ∉ piece := by
    intro piece hpiece
    obtain ⟨text, htext, rfl⟩ := List.mem_map.1 hpiece
    exact hmark text htext
  rw [String.toList_intercalate, hsep, List.splitOn_intercalate _ hpieces (by simpa using hne)]

/-! ### From the right -/

variable [BEq α]

/-- What stands before the last occurrence of a mark of several letters, and what follows it. -/
def cutLast (mark : List α) : List α → Option (List α × List α)
  | [] => none
  | x :: xs =>
    match cutLast mark xs with
    | some (before, after) => some (x :: before, after)
    | none => if mark.isPrefixOf (x :: xs) then some ([], (x :: xs).drop mark.length) else none

lemma cutLast_eq_none [LawfulBEq α] {a : α} {as xs : List α} (h : a ∉ xs) :
    cutLast (a :: as) xs = none := by
  induction xs with
  | nil => rfl
  | cons x xs ih =>
    rw [cutLast, ih fun hx => h (List.mem_cons_of_mem _ hx)]
    have ha : (a == x) = false := beq_eq_false_iff_ne.2 fun hax => h (by simp [hax])
    simp [List.isPrefixOf, ha]

/-- **A mark is found from the right** where its first letter is met neither further on in the
mark nor behind it, whatever stands before it. -/
lemma cutLast_append [LawfulBEq α] {a : α} {as after : List α} (has : a ∉ as) (hafter : a ∉ after)
    (before : List α) :
    cutLast (a :: as) (before ++ (a :: as ++ after)) = some (before, after) := by
  induction before with
  | nil =>
    have hnone : cutLast (a :: as) (as ++ after) = none := cutLast_eq_none (by simp [has, hafter])
    rw [List.nil_append, List.cons_append, cutLast, hnone]
    simp [List.isPrefixOf]
  | cons x before ih => rw [List.cons_append, cutLast, ih]

end SigV4.Joined
