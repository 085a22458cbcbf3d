import SigV4.Canonical.Headers
import SigV4.Proofs.Text.Joined

/-!
Texts by their words.

A text is read as words with blanks between and around them. Among the texts that have the same
words one is tidy: each of its blanks is one space with a word on either side. Folding a text
finds it.
-/

namespace SigV4.Canonical

/-- These are the words of the text: it starts with a blank, or with a word that a blank or the end
follows. -/
inductive HasWords : List Char → List (List Char) → Prop
  | nil : HasWords [] []
  | blank {c : Char} {cs : List Char} {ws : List (List Char)} (hc : Ascii.isBlank c = true)
      (h : HasWords cs ws) : HasWords (c :: cs) ws
  | word {w cs : List Char} {ws : List (List Char)} (hne : w ≠ [])
      (hw : ∀ c ∈ w, Ascii.isBlank c = false) (hend : ∀ c ∈ cs.head?, Ascii.isBlank c = true)
      (h : HasWords cs ws) : HasWords (w ++ cs) (w :: ws)

/-- Every blank of the text is one space between two characters that are none. -/
def IsTidy (cs : List Char) : Prop :=
  ∀ u v c, cs = u ++ c :: v → Ascii.isBlank c = true →
    c = ' ' ∧ (∃ x ∈ u.getLast?, Ascii.isBlank x = false) ∧ ∃ y ∈ v.head?, Ascii.isBlank y = false

/-- The tidy text with the words of another one. -/
structure IsFoldOf (s t : String) : Prop where
  sameWords : ∃ ws, HasWords s.toList ws ∧ HasWords t.toList ws
  isTidy : IsTidy t.toList

/-! ### Words -/

lemma words_append_blank {c : Char} (hc : Ascii.isBlank c = true) (u v : List Char) :
    words (u ++ c :: v) = words u ++ words v := by
  rw [words, List.splitOnP_append_cons _ _ hc, List.filter_append]
  rfl

lemma words_of_word {w : List Char} (hne : w ≠ []) (hw : ∀ c ∈ w, Ascii.isBlank c = false) :
    words w = [w] := by
  have hkeep : w.isEmpty = false := by simpa using hne
  rw [words, List.splitOnP_eq_singleton hw, List.filter_singleton, hkeep]
  rfl

lemma HasWords.eq_words {cs : List Char} {ws : List (List Char)} (h : HasWords cs ws) :
    ws = words cs := by
  induction h with
  | nil => rfl
  | @blank c cs ws hc _ ih => rw [ih, ← List.nil_append (c :: cs), words_append_blank hc]; rfl
  | @word w cs ws hne hw hend _ ih =>
    cases cs with
    | nil => rw [ih, List.append_nil, words_of_word hne hw]; rfl
    | cons c cs =>
      have hc := hend c rfl
      rw [ih, words_append_blank hc, words_of_word hne hw, ← List.nil_append (c :: cs),
        words_append_blank hc]
      rfl

lemma exists_hasWords (cs : List Char) : ∃ ws, HasWords cs ws := by
  induction cs with
  | nil => exact ⟨[], .nil⟩
  | cons c cs ih =>
    obtain ⟨ws, h⟩ := ih
    cases hc : Ascii.isBlank c with
    | true => exact ⟨ws, .blank hc h⟩
    | false =>
      -- The character begins a word, or it is put before the one that begins the rest.
      cases h with
      | nil => exact ⟨_, .word (w := [c]) (by simp) (by simpa using hc) (by simp) .nil⟩
      | blank hb h =>
        exact ⟨_, .word (w := [c]) (by simp) (by simpa using hc) (by simpa using hb)
          (.blank hb h)⟩
      | word hne hw hend h =>
        exact ⟨_, .word (w := c :: _) (by simp) (List.forall_mem_cons.2 ⟨hc, hw⟩) hend h⟩

lemma hasWords_iff {cs : List Char} {ws : List (List Char)} :
    HasWords cs ws ↔ ws = words cs := by
  refine ⟨HasWords.eq_words, ?_⟩
  rintro rfl
  obtain ⟨ws, h⟩ := exists_hasWords cs
  rwa [← h.eq_words]

/-- A run of characters that are no blanks. -/
def IsWord (w : List Char) : Prop := w ≠ [] ∧ ∀ c ∈ w, Ascii.isBlank c = false

lemma HasWords.isWord {cs : List Char} {ws : List (List Char)} (h : HasWords cs ws) :
    ∀ w ∈ ws, IsWord w := by
  induction h with
  | nil => simp
  | blank _ _ ih => exact ih
  | word hne hw _ _ ih => exact List.forall_mem_cons.2 ⟨⟨hne, hw⟩, ih⟩

lemma isWord_of_mem_words {cs w : List Char} (h : w ∈ words cs) : IsWord w :=
  (hasWords_iff.2 rfl).isWord w h

/-! ### Tidy texts -/

lemma IsTidy.isBlank_head {c : Char} {cs : List Char} (h : IsTidy (c :: cs)) :
    Ascii.isBlank c = false := by
  by_contra hc
  obtain ⟨-, ⟨x, hx, -⟩, -⟩ := h [] cs c rfl (by simpa using hc)
  cases hx

lemma IsTidy.of_append {u v : List Char} {c : Char} (h : IsTidy (u ++ c :: v))
    (hc : Ascii.isBlank c = true) : IsTidy v := by
  rintro u' v' c' rfl hc'
  obtain ⟨hspace, ⟨x, hx, hxb⟩, hnext⟩ := h (u ++ c :: u') v' c' (by simp) hc'
  refine ⟨hspace, ⟨x, ?_, hxb⟩, hnext⟩
  cases u' with
  | nil =>
    have hcx : c = x := by simpa using hx
    rw [hcx, hxb] at hc
    cases hc
  | cons y u' => simpa [List.getLast?_append, List.getLast?_cons_cons] using hx

/-- **Tidy texts joined by a mark are tidy**, if the mark is no blank, or a space between words. -/
lemma IsTidy.join {s t : List Char} {m : Char} (hs : IsTidy s) (ht : IsTidy t)
    (hm : Ascii.isBlank m = true → m = ' ' ∧ (∃ x ∈ s.getLast?, Ascii.isBlank x = false) ∧
      ∃ y ∈ t.head?, Ascii.isBlank y = false) : IsTidy (s ++ m :: t) := by
  intro u v c h hc
  rcases List.append_eq_append_iff.1 h with ⟨r, rfl, hr⟩ | ⟨r, rfl, hr⟩
  · cases r with
    | nil =>
      obtain ⟨rfl, rfl⟩ := List.cons.inj hr
      simpa using hm hc
    | cons y r =>
      obtain ⟨rfl, rfl⟩ := List.cons.inj hr
      obtain ⟨hspace, ⟨x, hx, hxb⟩, hnext⟩ := ht r v c rfl hc
      refine ⟨hspace, ⟨x, ?_, hxb⟩, hnext⟩
      rw [List.getLast?_append, List.getLast?_cons]
      simp_all
  · cases r with
    | nil =>
      obtain ⟨rfl, rfl⟩ := List.cons.inj hr
      simpa using hm hc
    | cons y r =>
      obtain ⟨rfl, rfl⟩ := List.cons.inj hr
      obtain ⟨hspace, hlast, ⟨x, hx, hxb⟩⟩ := hs u r c rfl hc
      refine ⟨hspace, hlast, x, ?_, hxb⟩
      simp_all

lemma isTidy_of_isWord {w : List Char} (h : IsWord w) : IsTidy w := by
  rintro u v c rfl hc
  have := h.2 c (by simp)
  rw [hc] at this
  cases this

lemma isTidy_intercalate_of_mark {m : Char} (hm : Ascii.isBlank m = false)
    {pieces : List (List Char)} (h : ∀ piece ∈ pieces, IsTidy piece) :
    IsTidy ([m].intercalate pieces) := by
  induction pieces with
  | nil => intro u v c h; simp at h
  | cons p ps ih =>
    obtain ⟨hp, hps⟩ := List.forall_mem_cons.1 h
    cases ps with
    | nil => simpa using hp
    | cons q qs =>
      rw [List.intercalate_cons_cons, List.append_assoc]
      exact hp.join (ih hps) (by simp [hm])

lemma exists_head_intercalate {mark w : List Char} (hw : IsWord w) (ws : List (List Char)) :
    ∃ y ∈ (mark.intercalate (w :: ws)).head?, Ascii.isBlank y = false := by
  obtain ⟨y, rest, rfl⟩ := List.exists_cons_of_ne_nil hw.1
  refine ⟨y, ?_, hw.2 y List.mem_cons_self⟩
  cases ws with
  | nil => simp
  | cons _ _ => simp [List.intercalate_cons_cons]

lemma isTidy_intercalate {ws : List (List Char)} (h : ∀ w ∈ ws, IsWord w) :
    IsTidy ([' '].intercalate ws) := by
  induction ws with
  | nil => intro u v c h; simp at h
  | cons w ws ih =>
    obtain ⟨hw, hws⟩ := List.forall_mem_cons.1 h
    cases ws with
    | nil => simpa using isTidy_of_isWord hw
    | cons q qs =>
      have hlast : ∃ x ∈ w.getLast?, Ascii.isBlank x = false :=
        ⟨w.getLast hw.1, List.getLast?_eq_some_getLast hw.1, hw.2 _ (List.getLast_mem hw.1)⟩
      rw [List.intercalate_cons_cons, List.append_assoc]
      exact (isTidy_of_isWord hw).join (ih hws) fun _ =>
        ⟨rfl, hlast, exists_head_intercalate (hws q List.mem_cons_self) qs⟩

lemma hasWords_intercalate {ws : List (List Char)} (h : ∀ w ∈ ws, IsWord w) :
    HasWords ([' '].intercalate ws) ws := by
  induction ws with
  | nil => exact .nil
  | cons w ws ih =>
    obtain ⟨hw, hws⟩ := List.forall_mem_cons.1 h
    cases ws with
    | nil => simpa using HasWords.word hw.1 hw.2 (by simp) .nil
    | cons q qs =>
      rw [List.intercalate_cons_cons, List.append_assoc]
      exact .word hw.1 hw.2 (by simp [Ascii.isBlank]) (.blank rfl (ih hws))

/-- **A tidy text is told by its words.** -/
lemma IsTidy.eq_intercalate {cs : List Char} {ws : List (List Char)} (ht : IsTidy cs)
    (h : HasWords cs ws) : cs = [' '].intercalate ws := by
  induction ws generalizing cs with
  | nil =>
    cases h with
    | nil => rfl
    | blank hc _ => rw [ht.isBlank_head] at hc; cases hc
  | cons w ws ih =>
    cases h with
    | blank hc _ => rw [ht.isBlank_head] at hc; cases hc
    | @word _ rest _ hne hw hend h =>
      cases rest with
      | nil =>
        cases hasWords_iff.1 h
        simp [words]
      | cons c rest =>
        have hc := hend c rfl
        obtain ⟨rfl, -, y, hy, -⟩ := ht w rest c rfl hc
        have hrest : HasWords rest ws := by
          rw [hasWords_iff] at h ⊢
          rw [h, ← List.nil_append (' ' :: rest), words_append_blank hc]
          rfl
        have heq := ih (ht.of_append hc) hrest
        cases ws with
        | nil => rw [heq] at hy; cases hy
        | cons q qs => rw [List.intercalate_cons_cons, ← heq, List.append_assoc]; rfl

lemma toList_fold (s : String) : (fold s).toList = [' '].intercalate (words s.toList) := by
  rw [fold, String.toList_ofList]

/-- **Folding finds the tidy text with the same words**, and there is no other. -/
lemma isFoldOf_iff {s t : String} : IsFoldOf s t ↔ t = fold s := by
  constructor
  · rintro ⟨⟨ws, hs, ht⟩, htidy⟩
    rw [← String.toList_inj, toList_fold, ← hasWords_iff.1 hs]
    exact htidy.eq_intercalate ht
  · rintro rfl
    have hwords : ∀ w ∈ words s.toList, IsWord w := fun w => isWord_of_mem_words
    refine ⟨⟨words s.toList, hasWords_iff.2 rfl, ?_⟩, ?_⟩
    · rw [toList_fold]
      exact hasWords_intercalate hwords
    · rw [toList_fold]
      exact isTidy_intercalate hwords

lemma IsTidy.isFoldOf_self {s : String} (h : IsTidy s.toList) : IsFoldOf s s :=
  ⟨⟨_, hasWords_iff.2 rfl, hasWords_iff.2 rfl⟩, h⟩

end SigV4.Canonical
