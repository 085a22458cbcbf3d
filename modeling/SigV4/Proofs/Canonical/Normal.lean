import Mathlib.Data.List.Induction
import SigV4.Canonical.Path
import SigV4.Proofs.Text.Joined

/-!
Normalized paths.

The names that are left of a path are what can stand on the stack: neither empty nor made of one
or two dots, and without a slash. Such names pass through the stack as they are, so the path that
is written from them is left alone when it is normalized again.
-/

namespace SigV4.Canonical

/-- A segment that stays on the stack. -/
structure IsName (n : List Char) : Prop where
  ne_nil : n ≠ []
  ne_dot : n ≠ ['.']
  ne_dots : n ≠ ['.', '.']
  no_slash : '/' ∉ n

/-- Names as they are written, with a slash before each. -/
def written (ns : List (List Char)) : List Char := ns.flatMap fun n => '/' :: n

lemma normalize_eq (path : List Char) : normalize path =
    if written (names path) = [] ∨ path.getLast? = some '/' then written (names path) ++ ['/']
    else written (names path) := rfl

/-! ### The stack -/

lemma visit_of_isName {n : List Char} (h : IsName n) (stack : List (List Char)) :
    visit stack n = n :: stack := by
  rw [visit, if_neg (not_or.2 ⟨h.ne_nil, h.ne_dot⟩), if_neg h.ne_dots]

/-- **A segment leaves names on the stack**, whatever it does to them. -/
lemma isName_of_mem_visit {stack : List (List Char)} {segment : List Char}
    (hstack : ∀ n ∈ stack, IsName n) (hsegment : '/' ∉ segment) :
    ∀ n ∈ visit stack segment, IsName n := by
  unfold visit
  split_ifs with hskip hup
  · exact hstack
  · exact fun n hn => hstack n (List.mem_of_mem_tail hn)
  · rw [not_or] at hskip
    exact List.forall_mem_cons.2 ⟨⟨hskip.1, hskip.2, hup, hsegment⟩, hstack⟩

lemma isName_of_mem_foldl_visit {ss stack : List (List Char)} (hstack : ∀ n ∈ stack, IsName n)
    (hss : ∀ segment ∈ ss, '/' ∉ segment) : ∀ n ∈ ss.foldl visit stack, IsName n := by
  induction ss generalizing stack with
  | nil => exact hstack
  | cons segment ss ih =>
    obtain ⟨hsegment, hss⟩ := List.forall_mem_cons.1 hss
    exact ih (isName_of_mem_visit hstack hsegment) hss

lemma isName_of_mem_names {path n : List Char} (h : n ∈ names path) : IsName n := by
  refine isName_of_mem_foldl_visit (by simp) (fun segment hsegment => ?_) n (List.mem_reverse.1 h)
  exact Joined.not_mem_of_mem_splitOn hsegment

lemma foldl_visit_of_isName {ns : List (List Char)} (h : ∀ n ∈ ns, IsName n)
    (stack : List (List Char)) : ns.foldl visit stack = ns.reverse ++ stack := by
  induction ns generalizing stack with
  | nil => rfl
  | cons n ns ih =>
    obtain ⟨hn, hns⟩ := List.forall_mem_cons.1 h
    rw [List.foldl_cons, visit_of_isName hn, ih hns, List.reverse_cons, List.append_assoc]
    rfl

/-! ### Written names -/

lemma segments_append_slash (u v : List Char) :
    segments (u ++ '/' :: v) = segments u ++ segments v := List.splitOn_append_cons_self u v

lemma segments_append_written {u : List Char} {ns : List (List Char)} (hu : '/' ∉ u)
    (h : ∀ n ∈ ns, IsName n) : segments (u ++ written ns) = u :: ns := by
  induction ns generalizing u with
  | nil => rw [written, List.flatMap_nil, List.append_nil, segments, List.splitOn_eq_singleton hu]
  | cons n ns ih =>
    obtain ⟨hn, hns⟩ := List.forall_mem_cons.1 h
    have hcons : written (n :: ns) = '/' :: (n ++ written ns) := rfl
    rw [hcons, segments_append_slash, ih hn.no_slash hns, segments, List.splitOn_eq_singleton hu]
    rfl

lemma names_written {ns : List (List Char)} (h : ∀ n ∈ ns, IsName n) : names (written ns) = ns := by
  have hsegments : segments (written ns) = [] :: ns :=
    segments_append_written (u := []) List.not_mem_nil h
  have hskip : visit [] [] = [] := rfl
  rw [names, hsegments, List.foldl_cons, hskip, foldl_visit_of_isName h, List.append_nil,
    List.reverse_reverse]

lemma names_append_slash (path : List Char) : names (path ++ ['/']) = names path := by
  have hlast : segments [] = [[]] := rfl
  have hskip : ∀ stack, visit stack [] = stack := fun _ => rfl
  rw [names, segments_append_slash, hlast, List.foldl_append, List.foldl_cons, hskip]
  rfl

lemma getLast?_written_ne {ns : List (List Char)} (h : ∀ n ∈ ns, IsName n) :
    (written ns).getLast? ≠ some '/' := by
  cases ns using List.reverseRecOn with
  | nil => simp [written]
  | append_singleton ns n =>
    have hn := h n (by simp)
    have hwritten : written (ns ++ [n]) = written ns ++ '/' :: n := by simp [written]
    intro hlast
    rw [hwritten, List.getLast?_append, List.getLast?_cons, List.getLast?_eq_some_getLast hn.ne_nil]
      at hlast
    have hslash : n.getLast hn.ne_nil = '/' := by simpa using hlast
    exact hn.no_slash (hslash ▸ List.getLast_mem hn.ne_nil)

lemma normalize_ne_nil (path : List Char) : normalize path ≠ [] := by
  rw [normalize_eq]
  split_ifs with h
  · simp
  · exact (not_or.1 h).1

lemma names_normalize (path : List Char) : names (normalize path) = names path := by
  have hnames : ∀ n ∈ names path, IsName n := fun _ => isName_of_mem_names
  rw [normalize_eq]
  split_ifs with h
  · rw [names_append_slash, names_written hnames]
  · exact names_written hnames

lemma normalize_normalize (path : List Char) : normalize (normalize path) = normalize path := by
  rw [normalize_eq (normalize path), names_normalize]
  by_cases h : written (names path) = [] ∨ path.getLast? = some '/'
  · have hnormal : normalize path = written (names path) ++ ['/'] := by rw [normalize_eq, if_pos h]
    rw [hnormal, if_pos (.inr (by simp))]
  · have hnormal : normalize path = written (names path) := by rw [normalize_eq, if_neg h]
    have hlast : (written (names path)).getLast? ≠ some '/' :=
      getLast?_written_ne fun _ => isName_of_mem_names
    rw [hnormal, if_neg (not_or.2 ⟨(not_or.1 h).1, hlast⟩)]

end SigV4.Canonical
