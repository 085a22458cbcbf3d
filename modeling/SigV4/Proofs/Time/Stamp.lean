import Mathlib
import SigV4.Proofs.Http.Visible

/-!
Time stamps, written and read.

A writer uses a fixed count of digits for each number, so a reader that takes as many digits as a
number may have knows where each of them ends. Only a year with a sign has no such end: it runs into
the month, and what is left is no time stamp. So exactly the years of four digits are read back.
-/

namespace SigV4

namespace Decimal

lemma toNat_digit : ∀ n < 10, (digit n).toNat = 48 + n := by decide

lemma value_append_singleton (ds : List Char) (c : Char) :
    value (ds ++ [c]) = 10 * value ds + (c.toNat - 48) := by
  rw [value, List.foldl_append]
  rfl

lemma value_fixed (width n : Nat) : value (fixed width n) = n % 10 ^ width := by
  induction width generalizing n with
  | zero => simp [fixed, value, Nat.mod_one]
  | succ width ih =>
    rw [fixed, value_append_singleton, ih, toNat_digit _ (Nat.mod_lt _ (by decide)), Nat.pow_succ,
      Nat.mul_comm (10 ^ width), Nat.mod_mul]
    omega

lemma fixed_ne_nil {width : Nat} (hwidth : 0 < width) (n : Nat) : fixed width n ≠ [] := by
  rw [← List.length_pos_iff, length_fixed]
  exact hwidth

end Decimal

lemma isUnicodeBlank_of_isDigit {c : Char} (h : c.isDigit = true) : isUnicodeBlank c = false := by
  have hrange := Ascii.toNat_of_isAlphanum (Ascii.isAlphanum_of_isDigit h)
  rw [isUnicodeBlank, List.any_eq_false]
  simp only [blankRanges, List.forall_mem_cons, Bool.and_eq_true, decide_eq_true_eq]
  simp only [List.not_mem_nil, IsEmpty.forall_iff, implies_true, and_true]
  omega

namespace Date

lemma month_le (d : Date) : d.month ≤ 12 ∧ d.day ≤ 31 := by
  have hday := d.day_range
  unfold daysInMonth at hday
  split_ifs at hday <;> omega

lemma of?_eq (d : Date) : of? d.year d.month d.day = some d := by
  rw [of?, dif_pos d.year_range, dif_pos d.day_range]

end Date

namespace Instant

variable {t u : Instant} {s : String} {width : Nat} {ds rest : List Char}

/-- The year is written with four digits and no sign. -/
def HasPlainYear (t : Instant) : Prop := 0 ≤ t.date.year ∧ t.date.year ≤ 9999

instance (t : Instant) : Decidable t.HasPlainYear := inferInstanceAs (Decidable (_ ∧ _))

/-! ### Reading numbers -/

lemma takeDigits?_append (hne : ds ≠ []) (hds : ∀ c ∈ ds, c.isDigit = true)
    (hwidth : ds.length ≤ width)
    (hend : ds.length = width ∨ ∀ c ∈ rest.head?, c.isDigit = false) :
    takeDigits? width (ds ++ rest) = some (Decimal.value ds, rest) := by
  have htaken : ((ds ++ rest).take width).takeWhile Char.isDigit = ds := by
    rw [List.take_append, List.take_of_length_le hwidth, List.takeWhile_append_of_pos hds]
    rcases hend with rfl | hend
    · simp
    · cases rest with
      | nil => simp
      | cons c rest =>
        have hc : c.isDigit = false := hend c rfl
        cases width - ds.length <;> simp [hc]
  have hsome : ds.isEmpty = false := List.isEmpty_eq_false_iff.2 hne
  simp only [takeDigits?, htaken, hsome, List.drop_left]
  rfl

lemma takeDigits?_fixed {n : Nat} (hwidth : 0 < width) (hn : n < 10 ^ width) (rest : List Char) :
    takeDigits? width (Decimal.fixed width n ++ rest) = some (n, rest) := by
  have hlength := Decimal.length_fixed width n
  rw [takeDigits?_append (Decimal.fixed_ne_nil hwidth n) (fun _ => Decimal.isDigit_of_mem_fixed)
    (Nat.le_of_eq hlength) (.inl hlength), Decimal.value_fixed, Nat.mod_eq_of_lt hn]

lemma dropWhile_blank_append (hne : ds ≠ []) (hds : ∀ c ∈ ds, c.isDigit = true) :
    (ds ++ rest).dropWhile isUnicodeBlank = ds ++ rest := by
  obtain ⟨c, ds, rfl⟩ := List.exists_cons_of_ne_nil hne
  rw [List.cons_append, List.dropWhile_cons_of_neg]
  simp [isUnicodeBlank_of_isDigit (hds c List.mem_cons_self)]

/-- **A number of fixed width is read back.** -/
lemma takeNumber?_fixed {n : Nat} (hwidth : 0 < width) (hn : n < 10 ^ width) (rest : List Char) :
    takeNumber? width (Decimal.fixed width n ++ rest) = some (n, rest) := by
  rw [takeNumber?, dropWhile_blank_append (Decimal.fixed_ne_nil hwidth n)
    fun _ => Decimal.isDigit_of_mem_fixed, takeDigits?_fixed hwidth hn]

lemma takeYear?_append (hne : ds ≠ []) (hds : ∀ c ∈ ds, c.isDigit = true) :
    takeYear? (ds ++ rest) = (takeDigits? 4 (ds ++ rest)).map fun r => ((r.1 : Int), r.2) := by
  rw [takeYear?, dropWhile_blank_append hne hds]
  obtain ⟨c, ds, rfl⟩ := List.exists_cons_of_ne_nil hne
  have hc : c.isDigit = true := hds c List.mem_cons_self
  rw [List.cons_append]
  split
  · next heq =>
    obtain ⟨rfl, -⟩ := List.cons.inj heq
    exact absurd hc (by decide)
  · next heq =>
    obtain ⟨rfl, -⟩ := List.cons.inj heq
    exact absurd hc (by decide)
  · rfl

lemma takeYear?_yearText {year : Int} (hyear : 0 ≤ year ∧ year ≤ 9999) (rest : List Char) :
    takeYear? (yearText year ++ rest) = some (year, rest) := by
  rw [yearText, if_pos hyear, takeYear?_append (Decimal.fixed_ne_nil (by decide) _)
    fun _ => Decimal.isDigit_of_mem_fixed, takeDigits?_fixed (by decide) (by omega),
    Option.map_some, Int.toNat_of_nonneg hyear.1]

/-- **A year with a sign runs into the digits that follow it.** -/
lemma takeYear?_yearText_of_signed {year : Int} (hyear : ¬(0 ≤ year ∧ year ≤ 9999)) (hne : ds ≠ [])
    (hds : ∀ c ∈ ds, c.isDigit = true) (hend : ∀ c ∈ rest.head?, c.isDigit = false) :
    ∃ n, takeYear? (yearText year ++ (ds ++ rest)) = some (n, rest) := by
  set digits := Decimal.atLeast 4 year.natAbs ++ ds with hdigits
  have hall : ∀ c ∈ digits, c.isDigit = true := by
    intro c hc
    rcases List.mem_append.1 hc with hc | hc
    · exact Decimal.isDigit_of_mem_atLeast hc
    · exact hds c hc
  have hread : takeDigits? (digits ++ rest).length (digits ++ rest) =
      some (Decimal.value digits, rest) :=
    takeDigits?_append (by simp [hdigits, hne]) hall (by simp) (.inr hend)
  have hminus : takeYear? ('-' :: (digits ++ rest)) = some (-(Decimal.value digits : Int), rest) :=
    congrArg (Option.map fun r : Nat × List Char => (-(r.1 : Int), r.2)) hread
  have hplus : takeYear? ('+' :: (digits ++ rest)) = some ((Decimal.value digits : Int), rest) :=
    congrArg (Option.map fun r : Nat × List Char => ((r.1 : Int), r.2)) hread
  rw [yearText, if_neg hyear, List.cons_append, ← List.append_assoc, ← hdigits]
  split
  · exact ⟨_, hminus⟩
  · exact ⟨_, hplus⟩

/-! ### Reading stamps -/

lemma toList_stamp (t : Instant) : t.stamp.toList = yearText t.date.year ++
    (Decimal.fixed 2 t.date.month ++ (Decimal.fixed 2 t.date.day ++ 'T' ::
      (Decimal.fixed 2 t.hour ++ (Decimal.fixed 2 t.minute ++
        (Decimal.fixed 2 t.second ++ ['Z']))))) := by
  simp [stamp, dateStamp, String.toList_append]

lemma of?_eq_startOfSecond (t : Instant) :
    of? t.date t.hour t.minute t.second 0 = some t.startOfSecond :=
  dif_pos ⟨t.hour_lt, t.minute_lt, t.second_le, by decide⟩

lemma ofStamp?_stamp (h : t.HasPlainYear) : ofStamp? t.stamp = some t.startOfSecond := by
  obtain ⟨hmonth, hday⟩ := t.date.month_le
  have hhour := t.hour_lt
  have hminute := t.minute_lt
  have hsecond := t.second_le
  have hread : ∀ n rest, n < 100 → takeNumber? 2 (Decimal.fixed 2 n ++ rest) = some (n, rest) :=
    fun n rest hn => takeNumber?_fixed (by decide) hn rest
  have hmark : ∀ c rest, takeMark? c (c :: rest) = some rest := fun c rest => if_pos rfl
  rw [ofStamp?, toList_stamp, takeYear?_yearText h]
  simp only [bind, Option.bind_some, hread _ _ (by omega : t.date.month < 100),
    hread _ _ (by omega : t.date.day < 100), hmark, hread _ _ (by omega : t.hour < 100),
    hread _ _ (by omega : t.minute < 100), hread _ _ (by omega : t.second < 100),
    t.date.of?_eq, of?_eq_startOfSecond]
  rfl

lemma ofStamp?_stamp_of_signed (h : ¬t.HasPlainYear) : ofStamp? t.stamp = none := by
  set ds := Decimal.fixed 2 t.date.month ++ Decimal.fixed 2 t.date.day with hds
  set clock := Decimal.fixed 2 t.hour ++ (Decimal.fixed 2 t.minute ++
    (Decimal.fixed 2 t.second ++ ['Z'])) with hclock
  have hdigits : ∀ c ∈ ds, c.isDigit = true := by
    intro c hc
    rcases List.mem_append.1 hc with hc | hc <;> exact Decimal.isDigit_of_mem_fixed hc
  have hne : ds ≠ [] := by simp [hds, Decimal.fixed_ne_nil]
  have hend : ∀ c ∈ ('T' :: clock).head?, c.isDigit = false := by simp
  have hmonth : takeNumber? 2 ('T' :: clock) = none := rfl
  obtain ⟨n, hyear⟩ := takeYear?_yearText_of_signed h hne hdigits hend
  rw [ofStamp?, toList_stamp, ← hclock, ← List.append_assoc (Decimal.fixed 2 t.date.month), ← hds,
    hyear]
  simp only [bind, Option.bind_some, hmonth, Option.bind_none]

lemma nano_of_of? {d : Date} {hour minute second nano : Nat}
    (h : of? d hour minute second nano = some t) : t.nano = nano := by
  unfold of? at h
  split at h
  · cases h; rfl
  · cases h

lemma exists_of_ofStamp? (h : ofStamp? s = some t) :
    ∃ d hour minute second, of? d hour minute second 0 = some t := by
  simp only [ofStamp?, Option.bind_eq_bind, Option.bind_eq_some_iff] at h
  obtain ⟨_, -, _, -, _, -, _, -, hour, -, minute, -, second, -, _, -, d, -, h⟩ := h
  split at h
  · exact ⟨d, hour.1, minute.1, second.1, h⟩
  · cases h

lemma startOfSecond_of_ofStamp? (h : ofStamp? s = some t) : t.startOfSecond = t := by
  obtain ⟨d, hour, minute, second, hof⟩ := exists_of_ofStamp? h
  have hnano := nano_of_of? hof
  obtain ⟨_, _, _, _, nano, _, _, _, _⟩ := t
  cases hnano
  rfl

/-! ### Round trips -/

lemma ofStamp_eq_ok_iff : ofStamp s = .ok t ↔ ofStamp? s = some t := by
  unfold ofStamp
  cases ofStamp? s <;> simp

/-- **Time stamps are read back**, exactly those whose year has four digits and no sign. What is
read is the start of the second that was written, be it a leap second or not, so a stamp tells the
second. A stamp in any lenient form is read like the one that is written for it. -/
theorem stamp_reads_back :
    (∀ t : Instant, ofStamp t.stamp =
      if t.HasPlainYear then .ok t.startOfSecond else .error (.timeMalformed t.stamp)) ∧
    (∀ t u : Instant, t.HasPlainYear → u.HasPlainYear →
      (t.stamp = u.stamp ↔ t.startOfSecond = u.startOfSecond)) ∧
    ∀ (s : String) (t : Instant), ofStamp s = .ok t → t.HasPlainYear → ofStamp t.stamp = .ok t := by
  have hplain : ∀ t : Instant, t.HasPlainYear → ofStamp t.stamp = .ok t.startOfSecond :=
    fun t h => ofStamp_eq_ok_iff.2 (ofStamp?_stamp h)
  refine ⟨fun t => ?_, fun t u ht hu => ⟨fun h => ?_, fun h => ?_⟩, fun s t h hyear => ?_⟩
  · split
    · next h => exact hplain t h
    · next h => rw [ofStamp, ofStamp?_stamp_of_signed h]
  · refine Except.ok.inj ((hplain t ht).symm.trans (Eq.trans ?_ (hplain u hu)))
    rw [h]
  · have hstamp : ∀ t : Instant, t.startOfSecond.stamp = t.stamp := fun _ => rfl
    rw [← hstamp t, h, hstamp u]
  · rw [hplain t hyear, startOfSecond_of_ofStamp? (ofStamp_eq_ok_iff.1 h)]

/-- Two fractions of a leap second, and a leap day with blanks and no digit more than needed. -/
theorem stamp_reads_back_of_leap :
    let t : Instant := ⟨⟨2016, 12, 31, by decide, by decide⟩, 23, 59, 60, 1, by decide, by decide,
      by decide, by decide⟩
    let u : Instant := { t with nano := 2, nano_lt := by decide }
    let v : Instant := ⟨⟨16, 2, 29, by decide, by decide⟩, 1, 2, 3, 0, by decide, by decide,
      by decide, by decide⟩
    let s := " 16 2 29T1 02 3Z"
    t.HasPlainYear ∧ u.HasPlainYear ∧ v.HasPlainYear ∧ ofStamp t.stamp = .ok t.startOfSecond ∧
      (t.stamp = u.stamp ↔ t.startOfSecond = u.startOfSecond) ∧ ofStamp s = .ok v ∧
      ofStamp v.stamp = .ok v := by
  intro t u v s
  obtain ⟨hread, htell, hlenient⟩ := stamp_reads_back
  have ht : t.HasPlainYear := by decide
  have hu : u.HasPlainYear := by decide
  have hv : v.HasPlainYear := by decide
  have hs : ofStamp s = .ok v := by cbv
  exact ⟨ht, hu, hv, (hread t).trans (if_pos ht), htell t u ht hu, hs, hlenient s v hs hv⟩

end Instant

end SigV4
