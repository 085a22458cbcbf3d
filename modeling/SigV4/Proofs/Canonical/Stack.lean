import SigV4.Proofs.Canonical.Normal

/-!
The normal form of a path.

What the stack leaves of a path is told segment by segment, without a stack: a name comes after
those that are left already, two dots take the last of them away, and at the root there is none to
take. Exactly one path is written from the names that are left and ends as it has to; that is the
normalized one. A path can be normalized in parts, since only the names that are left of its
beginning matter for the rest.
-/

namespace SigV4.Canonical

variable {path p q : List Char} {ss ns : List (List Char)}

/-- The names that are left, in order, once all these segments are visited. -/
inductive Leaves : List (List Char) → List (List Char) → Prop
  | root : Leaves [] []
  | push {ss ns : List (List Char)} {n : List Char} (h : Leaves ss ns) (hne : n ≠ [])
      (hdot : n ≠ ['.']) (hdots : n ≠ ['.', '.']) : Leaves (ss ++ [n]) (ns ++ [n])
  | pop {ss ns : List (List Char)} {n : List Char} (h : Leaves ss (ns ++ [n])) :
      Leaves (ss ++ [['.', '.']]) ns
  | stay {ss : List (List Char)} (h : Leaves ss []) : Leaves (ss ++ [['.', '.']]) []
  | skip {ss ns : List (List Char)} {segment : List Char} (h : Leaves ss ns)
      (hskip : segment = [] ∨ segment = ['.']) : Leaves (ss ++ [segment]) ns

/-- The segments that hold something. -/
def filled (ss : List (List Char)) : List (List Char) := ss.filter fun s => !s.isEmpty

/-- The path that is written from the names which are left of another one: it begins with a slash,
has no empty segment inside and no dot segment, and ends with a slash if the other one does or if
no name is left. -/
structure IsNormalFormOf (path p : List Char) : Prop where
  slash : p.head? = some '/'
  inner : ∀ u s v, segments p = u ++ s :: v → u ≠ [] → v ≠ [] → s ≠ []
  no_dots : ∀ s ∈ segments p, s ≠ ['.'] ∧ s ≠ ['.', '.']
  left : Leaves (segments path) (filled (segments p))
  last : p.getLast? = some '/' ↔ p = ['/'] ∨ path.getLast? = some '/'

/-! ### What is left -/

lemma foldl_visit_snoc (ss : List (List Char)) (segment : List Char) :
    (ss ++ [segment]).foldl visit [] = visit (ss.foldl visit []) segment := by
  rw [List.foldl_append]
  rfl

lemma Leaves.reverse_eq (h : Leaves ss ns) : ns.reverse = ss.foldl visit [] := by
  induction h with
  | root => rfl
  | push _ hne hdot hdots ih =>
    rw [foldl_visit_snoc, ← ih, visit, if_neg (not_or.2 ⟨hne, hdot⟩), if_neg hdots,
      List.reverse_concat]
  | pop _ ih =>
    rw [foldl_visit_snoc, ← ih, List.reverse_concat]
    rfl
  | stay _ ih =>
    rw [foldl_visit_snoc, ← ih]
    rfl
  | skip _ hskip ih => rw [foldl_visit_snoc, ← ih, visit, if_pos hskip]

lemma exists_leaves (ss : List (List Char)) : ∃ ns, Leaves ss ns := by
  induction ss using List.reverseRecOn with
  | nil => exact ⟨[], .root⟩
  | append_singleton ss segment ih =>
    obtain ⟨ns, h⟩ := ih
    by_cases hskip : segment = [] ∨ segment = ['.']
    · exact ⟨ns, .skip h hskip⟩
    · by_cases hdots : segment = ['.', '.']
      · subst hdots
        cases ns using List.reverseRecOn with
        | nil => exact ⟨[], .stay h⟩
        | append_singleton ns n => exact ⟨ns, .pop h⟩
      · rw [not_or] at hskip
        exact ⟨ns ++ [segment], .push h hskip.1 hskip.2 hdots⟩

/-- **One list of names is left of any segments**, and the stack holds it, the last name first. -/
lemma leaves_iff : Leaves ss ns ↔ ns = (ss.foldl visit []).reverse := by
  refine ⟨fun h => by rw [← h.reverse_eq, List.reverse_reverse], ?_⟩
  rintro rfl
  obtain ⟨ns, h⟩ := exists_leaves ss
  rwa [← h.reverse_eq, List.reverse_reverse]

lemma leaves_segments_iff : Leaves (segments path) ns ↔ ns = names path := leaves_iff

/-! ### What is written -/

lemma written_append (u v : List (List Char)) : written (u ++ v) = written u ++ written v := by
  rw [written, List.flatMap_append]
  rfl

lemma written_eq_nil_iff : written ns = [] ↔ ns = [] := by
  cases ns <;> simp [written]

lemma written_cons_eq (s : List Char) (ss : List (List Char)) :
    written (s :: ss) = '/' :: ['/'].intercalate (s :: ss) := by
  induction ss generalizing s with
  | nil => simp [written]
  | cons t ss ih =>
    rw [List.intercalate_cons_cons, List.append_assoc, List.singleton_append, ← ih]
    rfl

lemma exists_written_eq (h : p.head? = some '/') :
    ∃ ss, ss ≠ [] ∧ segments p = [] :: ss ∧ p = written ss := by
  obtain ⟨rest, rfl⟩ : ∃ rest, p = '/' :: rest := by
    cases p with
    | nil => cases h
    | cons c rest => exact ⟨rest, by rw [Option.some.inj h]⟩
  refine ⟨segments rest, List.splitOn_ne_nil _ _, segments_append_slash [] rest, ?_⟩
  obtain ⟨s, ss, hs⟩ := List.exists_cons_of_ne_nil (List.splitOn_ne_nil '/' rest)
  rw [segments, hs, written_cons_eq, ← hs, List.intercalate_splitOn]

lemma segments_normalize (path : List Char) : ∃ last, (last = [] ∨ last = [[]]) ∧
    segments (normalize path) = [] :: (names path ++ last) := by
  have hsegments : segments (written (names path)) = [] :: names path :=
    segments_append_written (u := []) List.not_mem_nil fun _ => isName_of_mem_names
  rw [normalize_eq]
  split_ifs
  · refine ⟨[[]], .inr rfl, ?_⟩
    rw [segments_append_slash, hsegments]
    rfl
  · exact ⟨[], .inl rfl, by rw [hsegments, List.append_nil]⟩

lemma normalize_congr (hnames : names p = names q)
    (hlast : p.getLast? = some '/' ↔ q.getLast? = some '/') : normalize p = normalize q := by
  rw [normalize_eq, normalize_eq, hnames]
  simp only [hlast]

lemma head?_normalize (path : List Char) : (normalize path).head? = some '/' := by
  rw [normalize_eq]
  cases names path with
  | nil => rfl
  | cons n ns => split_ifs <;> rfl

lemma getLast?_normalize (path : List Char) : (normalize path).getLast? = some '/' ↔
    normalize path = ['/'] ∨ path.getLast? = some '/' := by
  have hnames : ∀ n ∈ names path, IsName n := fun _ => isName_of_mem_names
  rw [normalize_eq]
  split_ifs with h
  · simp only [List.getLast?_concat, true_iff]
    exact h.imp_left fun hnil => by rw [hnil]; rfl
  · rw [not_or] at h
    have hlast := getLast?_written_ne hnames
    refine iff_of_false hlast (not_or.2 ⟨fun hslash => hlast ?_, h.2⟩)
    rw [hslash]
    rfl

/-! ### The normal form -/

lemma filled_append (u v : List (List Char)) : filled (u ++ v) = filled u ++ filled v :=
  List.filter_append u v

lemma filled_eq_self (h : ∀ s ∈ ss, s ≠ []) : filled ss = ss :=
  List.filter_eq_self.2 fun s hs => by simpa using h s hs

lemma isNormalFormOf_normalize (path : List Char) : IsNormalFormOf path (normalize path) := by
  have hnames : ∀ n ∈ names path, IsName n := fun _ => isName_of_mem_names
  have hfilled : filled (names path) = names path := filled_eq_self fun n hn => (hnames n hn).ne_nil
  obtain ⟨last, hlast, hsegments⟩ := segments_normalize path
  constructor
  case slash => exact head?_normalize path
  case inner =>
    intro u s v h hu hv
    obtain ⟨x, u, rfl⟩ := List.exists_cons_of_ne_nil hu
    rw [hsegments] at h
    have hrest : names path ++ last = u ++ s :: v := (List.cons.inj h).2
    -- The empty segment at the end, if there is one, is a part of `v`.
    have hs : s ∈ names path := by
      rcases hlast with rfl | rfl
      · rw [List.append_nil] at hrest
        simp [hrest]
      · obtain ⟨v, y, rfl⟩ := (List.eq_nil_or_concat' v).resolve_left hv
        have hinit : names path ++ [[]] = (u ++ s :: v) ++ [y] := by simpa using hrest
        simp [List.append_inj_left' hinit rfl]
    exact (hnames s hs).ne_nil
  case no_dots =>
    intro s hs
    rw [hsegments, List.mem_cons, List.mem_append] at hs
    rcases hs with rfl | hs | hs
    · decide
    · exact ⟨(hnames s hs).ne_dot, (hnames s hs).ne_dots⟩
    · rcases hlast with rfl | rfl
      · cases hs
      · rw [List.mem_singleton.1 hs]
        decide
  case left =>
    rw [leaves_segments_iff, hsegments]
    have hends : filled last = [] := by rcases hlast with rfl | rfl <;> rfl
    have hstart : filled ([] :: (names path ++ last)) = filled (names path ++ last) := rfl
    rw [hstart, filled_append, hfilled, hends, List.append_nil]
  case last => exact getLast?_normalize path

lemma IsNormalFormOf.eq_normalize (h : IsNormalFormOf path p) : p = normalize path := by
  obtain ⟨ss, hne, hsegments, hp⟩ := exists_written_eq h.slash
  obtain ⟨init, s, rfl⟩ := (List.eq_nil_or_concat' ss).resolve_left hne
  have hinit : filled init = init := by
    refine filled_eq_self fun n hn => ?_
    obtain ⟨u, v, rfl⟩ := List.append_of_mem hn
    exact h.inner ([] :: u) n (v ++ [s]) (by simp [hsegments]) (by simp) (by simp)
  have hnames : init ++ filled [s] = names path := by
    have hstart : filled ([] :: (init ++ [s])) = filled (init ++ [s]) := rfl
    rw [← leaves_segments_iff.1 h.left, hsegments, hstart, filled_append, hinit]
  rw [normalize_eq, ← hnames]
  by_cases hs : s = []
  · subst hs
    have hslash : p = written init ++ ['/'] := by rw [hp, written_append]; rfl
    have hcond : written init = [] ∨ path.getLast? = some '/' := by
      refine (h.last.1 (by simp [hslash])).imp_left fun hroot => ?_
      simpa [hslash] using hroot
    have hnone : filled [([] : List Char)] = [] := rfl
    rw [hslash, hnone, List.append_nil, if_pos hcond]
  · have hfilled : filled [s] = [s] := filled_eq_self (by simpa using hs)
    rw [hfilled] at hnames ⊢
    have hlast : p.getLast? ≠ some '/' := by
      rw [hp, hnames]
      exact getLast?_written_ne fun _ => isName_of_mem_names
    have hopen : ¬path.getLast? = some '/' := fun hpath => hlast (h.last.2 (.inr hpath))
    have hsome : p ≠ [] := by
      rw [hp]
      exact written_eq_nil_iff.not.2 hne
    rw [← hp, if_neg (not_or.2 ⟨hsome, hopen⟩)]

/-! ### In parts -/

lemma names_append_slash_congr (h : names p = names q) (rest : List Char) :
    names (p ++ '/' :: rest) = names (q ++ '/' :: rest) := by
  have hstack : (segments p).foldl visit [] = (segments q).foldl visit [] :=
    List.reverse_injective h
  rw [names, names, segments_append_slash, segments_append_slash, List.foldl_append,
    List.foldl_append, hstack]

lemma normalize_append_slash (path rest : List Char) :
    normalize (path ++ '/' :: rest) = normalize (normalize path ++ '/' :: rest) := by
  refine normalize_congr (names_append_slash_congr (names_normalize path).symm rest) ?_
  simp [List.getLast?_append]

/-- **The normal form of a path.** Normalizing gives the one path that is written from the names
which the stack leaves; a normalized path is left alone; and the beginning of a path may be
normalized before the rest is added. -/
theorem normal_form (path : List Char) :
    (∀ p, IsNormalFormOf path p ↔ p = normalize path) ∧
      normalize (normalize path) = normalize path ∧
      ∀ rest, normalize (path ++ '/' :: rest) = normalize (normalize path ++ '/' :: rest) := by
  refine ⟨fun p => ⟨fun h => h.eq_normalize, ?_⟩, normalize_normalize path,
    normalize_append_slash path⟩
  rintro rfl
  exact isNormalFormOf_normalize path

end SigV4.Canonical
