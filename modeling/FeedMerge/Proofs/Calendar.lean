import FeedMerge.Timestamp

/-!
# Days and dates

Every day from the start of year 1 to the end of year 9999 has a date that exists, and every such
date has its day: `Date.ofDayNumber` undoes `Date.dayNumber` (`ofDayNumber_dayNumber`), and no day is
without a date (`exists_date_of_lt`). Both go from a day to its year and the day of the year, and
from there to the month and the day of the month. The same holds of a time of day and its
microseconds, and so timestamps are the same as the date-times that they stand for.
-/

namespace FeedMerge

namespace Calendar

/-! ### Years -/

/-- The number of days of a year. -/
def yearLength (year : Nat) : Nat := if isLeap year then 366 else 365

theorem isLeap_iff (year : Nat) :
    isLeap year = true ↔ year % 4 = 0 ∧ (year % 100 ≠ 0 ∨ year % 400 = 0) := by
  simp [isLeap]

theorem daysBeforeYear_succ {year : Nat} (h : 1 ≤ year) :
    daysBeforeYear (year + 1) = daysBeforeYear year + yearLength year := by
  -- what each of the three quotients gains by one more year
  have hfours : year / 4 = (year - 1) / 4 + if year % 4 = 0 then 1 else 0 := by
    split <;> omega
  have hcenturies : year / 100 = (year - 1) / 100 + if year % 100 = 0 then 1 else 0 := by
    split <;> omega
  have hlong : year / 400 = (year - 1) / 400 + if year % 400 = 0 then 1 else 0 := by
    split <;> omega
  have hle : (year - 1) / 100 ≤ (year - 1) / 4 := by omega
  simp only [daysBeforeYear, yearLength, isLeap_iff, Nat.add_sub_cancel, hfours, hcenturies, hlong]
  generalize (year - 1) / 4 = fours at hle ⊢
  generalize (year - 1) / 100 = centuries at hle ⊢
  generalize (year - 1) / 400 = long
  by_cases h4 : year % 4 = 0
  · by_cases h100 : year % 100 = 0
    · by_cases h400 : year % 400 = 0
      · simp only [h4, h100, h400, if_true, true_and, or_true]
        omega
      · simp only [h4, h100, h400, if_true, if_false, ne_eq, not_true, or_self, and_false]
        omega
    · have h400 : year % 400 ≠ 0 := by omega
      simp only [h4, h100, h400, if_true, if_false, ne_eq, not_false_iff, or_false, and_self]
      omega
  · have h100 : year % 100 ≠ 0 := by omega
    have h400 : year % 400 ≠ 0 := by omega
    simp only [h4, h100, h400, if_false, false_and]
    omega

theorem daysBeforeYear_mono {first second : Nat} (hfirst : 1 ≤ first) (h : first ≤ second) :
    daysBeforeYear first ≤ daysBeforeYear second := by
  induction h with
  | refl => exact Nat.le_refl _
  | @step year hle ih =>
    rw [Nat.succ_eq_add_one, daysBeforeYear_succ (Nat.le_trans hfirst hle)]
    exact Nat.le_add_right_of_le ih

/-- A year by the cycles of 400, of 100 and of 4 years before it, and the years behind those. -/
structure Cycles where
  long : Nat
  centuries : Nat
  fours : Nat
  years : Nat
  centuries_le : centuries ≤ 3
  fours_le : fours ≤ 24
  years_le : years ≤ 3

namespace Cycles

def year (y : Cycles) : Nat := 400 * y.long + 100 * y.centuries + 4 * y.fours + y.years + 1

theorem exists_year_eq {year : Nat} (h : 1 ≤ year) : ∃ y : Cycles, y.year = year := by
  refine ⟨⟨(year - 1) / 400, (year - 1) % 400 / 100, (year - 1) % 100 / 4, (year - 1) % 4,
    by omega, by omega, by omega⟩, ?_⟩
  simp only [Cycles.year]
  omega

theorem daysBeforeYear_year (y : Cycles) :
    daysBeforeYear y.year = 146097 * y.long + 36524 * y.centuries + 1461 * y.fours +
      365 * y.years := by
  have hc := y.centuries_le
  have hf := y.fours_le
  have hy := y.years_le
  have hfours : (y.year - 1) / 4 = 100 * y.long + 25 * y.centuries + y.fours := by
    simp only [year]
    omega
  have hcenturies : (y.year - 1) / 100 = 4 * y.long + y.centuries := by
    simp only [year]
    omega
  have hlong : (y.year - 1) / 400 = y.long := by
    simp only [year]
    omega
  simp only [daysBeforeYear, hfours, hcenturies, hlong]
  simp only [year]
  omega

/-- A leap year ends a cycle of 4 years, and not one of 100 unless that ends one of 400. -/
theorem isLeap_year (y : Cycles) :
    isLeap y.year = true ↔ y.years = 3 ∧ (y.fours ≠ 24 ∨ y.centuries = 3) := by
  have hc := y.centuries_le
  have hf := y.fours_le
  have hy := y.years_le
  rw [isLeap_iff, year]
  omega

end Cycles

theorem div_mod_of_lt {size count rest : Nat} (h : rest < size) :
    (size * count + rest) / size = count ∧ (size * count + rest) % size = rest :=
  (Nat.div_mod_unique (by omega)).mpr ⟨Nat.add_comm _ _, h⟩

/-- The year of a day of that year, and its place in it. -/
theorem yearAndDay_daysBeforeYear {year day : Nat} (hyear : 1 ≤ year)
    (hday : day < yearLength year) : yearAndDay (daysBeforeYear year + day) = (year, day) := by
  obtain ⟨y, rfl⟩ := Cycles.exists_year_eq hyear
  have hc := y.centuries_le
  have hf := y.fours_le
  have hy := y.years_le
  -- a day 365 ends a leap year, and its cycles of years with it
  have hlast : day < 365 ∨ day = 365 ∧ y.years = 3 ∧ (y.fours ≠ 24 ∨ y.centuries = 3) := by
    by_cases hleap : isLeap y.year = true
    · rw [yearLength, if_pos hleap] at hday
      rw [Cycles.isLeap_year] at hleap
      omega
    · rw [yearLength, if_neg hleap] at hday
      omega
  have hlong : 36524 * y.centuries + (1461 * y.fours + (365 * y.years + day)) < 146097 := by omega
  have hfours : 365 * y.years + day < 1461 := by omega
  rw [Cycles.daysBeforeYear_year, Nat.add_assoc, Nat.add_assoc, Nat.add_assoc]
  simp only [yearAndDay, div_mod_of_lt hlong]
  by_cases hcentury : 1461 * y.fours + (365 * y.years + day) < 36524
  · simp only [div_mod_of_lt hcentury, div_mod_of_lt hfours]
    obtain hday | ⟨rfl, hyears, -⟩ := hlast
    · have hnext : ¬ (y.centuries = 4 ∨ y.years = 4) := by omega
      simp only [div_mod_of_lt hday, Bool.or_eq_true, decide_eq_true_eq, if_neg hnext,
        Prod.mk.injEq, and_true, Cycles.year]
      omega
    · have hend : (365 * y.years + 365) / 365 = 4 := by omega
      simp only [hend, decide_true, Bool.or_true, if_true, Prod.mk.injEq, and_true, Cycles.year]
      omega
  · obtain ⟨rfl, hyears, hlongEnd⟩ := hlast.resolve_left (by omega)
    obtain ⟨hcenturies, hfours⟩ : y.centuries = 3 ∧ y.fours = 24 := by omega
    simp only [Cycles.year, hcenturies, hfours, hyears, Nat.reduceMul, Nat.reduceAdd,
      Nat.reduceDiv, Nat.reduceMod, decide_true, Bool.true_or, if_true, Prod.mk.injEq, and_true]
    rw [Nat.mul_comm]

theorem exists_year (number : Nat) :
    ∃ year day, 1 ≤ year ∧ day < yearLength year ∧ number = daysBeforeYear year + day := by
  induction number with
  | zero => exact ⟨1, 0, by decide, by decide, rfl⟩
  | succ number ih =>
    obtain ⟨year, day, hyear, hday, rfl⟩ := ih
    by_cases hnext : day + 1 < yearLength year
    · exact ⟨year, day + 1, hyear, hnext, rfl⟩
    · refine ⟨year + 1, 0, by omega, ?_, ?_⟩
      · rw [yearLength]
        split <;> decide
      · rw [daysBeforeYear_succ hyear]
        omega

/-! ### Months -/

/-- The days of some months. -/
def daysOf (lengths : List Nat) : Nat := lengths.foldl (· + ·) 0

theorem daysOf_cons (length : Nat) (lengths : List Nat) :
    daysOf (length :: lengths) = length + daysOf lengths := by
  rw [daysOf, List.foldl_cons, Nat.add_comm 0 length]
  exact List.foldl_assoc

theorem monthAndDay_daysOf {month i day : Nat} {lengths : List Nat} (hi : i < lengths.length)
    (hday : day < lengths[i]) :
    monthAndDay month lengths (daysOf (lengths.take i) + day) = (month + i, day + 1) := by
  induction lengths generalizing month i with
  | nil => cases hi
  | cons length lengths ih =>
    cases i with
    | zero =>
      have hfirst : 0 + day < length := by
        rw [Nat.zero_add]
        exact hday
      rw [List.take_zero, daysOf, List.foldl_nil, monthAndDay, if_pos hfirst, Nat.zero_add]
      rfl
    | succ i =>
      have hrest := @ih (month + 1) i (Nat.lt_of_succ_lt_succ hi) hday
      have hpast : ¬ length + (daysOf (lengths.take i) + day) < length := by omega
      rw [List.take_succ_cons, daysOf_cons, Nat.add_assoc, monthAndDay, if_neg hpast,
        Nat.add_sub_cancel_left, hrest, Nat.add_assoc, Nat.add_comm 1 i]

theorem exists_month {lengths : List Nat} {day : Nat} (h : day < daysOf lengths) :
    ∃ (i : Nat) (hi : i < lengths.length) (rest : Nat),
      rest < lengths[i] ∧ day = daysOf (lengths.take i) + rest := by
  induction lengths generalizing day with
  | nil => cases h
  | cons length lengths ih =>
    by_cases hfirst : day < length
    · exact ⟨0, Nat.succ_pos _, day, hfirst, (Nat.zero_add day).symm⟩
    · rw [daysOf_cons] at h
      obtain ⟨i, hi, rest, hrest, hday⟩ := @ih (day - length) (by omega)
      refine ⟨i + 1, Nat.succ_lt_succ hi, rest, hrest, ?_⟩
      rw [List.take_succ_cons, daysOf_cons]
      omega

theorem daysOf_take_add_lt {i day : Nat} {lengths : List Nat} (hi : i < lengths.length)
    (hday : day < lengths[i]) : daysOf (lengths.take i) + day < daysOf lengths := by
  induction lengths generalizing i with
  | nil => cases hi
  | cons length lengths ih =>
    rw [daysOf_cons]
    cases i with
    | zero =>
      have hfirst : day < length := hday
      rw [List.take_zero, daysOf, List.foldl_nil]
      omega
    | succ i =>
      have hrest := ih (Nat.lt_of_succ_lt_succ hi) hday
      rw [List.take_succ_cons, daysOf_cons]
      omega

theorem daysOf_monthLengths (year : Nat) :
    daysOf (monthLengths (isLeap year)) = yearLength year := by
  rw [yearLength]
  cases isLeap year <;> rfl

/-! ### Dates -/

/-- A date that exists, by the number of its month counted from 0 and the days before it. -/
theorem Date.IsValid.exists_month {d : Date} (h : d.IsValid) :
    ∃ hi : d.month - 1 < (monthLengths (isLeap d.year)).length,
      1 ≤ d.month ∧ d.day - 1 < (monthLengths (isLeap d.year))[d.month - 1] := by
  obtain ⟨-, -, hday, hlast⟩ := h
  by_cases hzero : d.month = 0
  · rw [daysInMonth, if_pos hzero] at hlast
    omega
  · rw [daysInMonth, if_neg hzero] at hlast
    cases hlength : (monthLengths (isLeap d.year))[d.month - 1]? with
    | none =>
      rw [hlength] at hlast
      have hnone : d.day ≤ 0 := hlast
      omega
    | some length =>
      obtain ⟨hi, hget⟩ := List.getElem?_eq_some_iff.mp hlength
      rw [hlength] at hlast
      have hsome : d.day ≤ length := hlast
      exact ⟨hi, by omega, by omega⟩

theorem ofDayNumber_dayNumber {d : Date} (h : d.IsValid) : Date.ofDayNumber d.dayNumber = d := by
  obtain ⟨hi, hmonth, hday⟩ := h.exists_month
  have hwithin := daysOf_take_add_lt hi hday
  rw [daysOf_monthLengths] at hwithin
  have hyear := yearAndDay_daysBeforeYear h.1 hwithin
  have hmonthAndDay := @monthAndDay_daysOf 1 _ _ _ hi hday
  rw [Date.dayNumber, daysBeforeMonth, Nat.add_assoc]
  change Date.ofDayNumber (daysBeforeYear d.year + (daysOf _ + (d.day - 1))) = d
  rw [Date.ofDayNumber, hyear]
  dsimp only
  rw [hmonthAndDay]
  obtain ⟨year, month, day⟩ := d
  have hfirst : 1 ≤ day := h.2.2.1
  dsimp only at hmonth
  simp only [Date.mk.injEq, true_and]
  omega

theorem daysBeforeYear_end : daysBeforeYear 10000 = dayCount := rfl

theorem dayNumber_lt {d : Date} (h : d.IsValid) : d.dayNumber < dayCount := by
  obtain ⟨hi, hmonth, hday⟩ := h.exists_month
  have hwithin := daysOf_take_add_lt hi hday
  rw [daysOf_monthLengths] at hwithin
  have hnext := daysBeforeYear_mono (Nat.succ_pos d.year) (Nat.succ_le_succ h.2.1)
  rw [daysBeforeYear_succ h.1, daysBeforeYear_end] at hnext
  rw [Date.dayNumber, daysBeforeMonth, Nat.add_assoc]
  exact Nat.lt_of_lt_of_le (Nat.add_lt_add_left hwithin _) hnext

/-- No day is without a date. -/
theorem exists_date_of_lt {number : Nat} (h : number < dayCount) :
    ∃ d : Date, d.IsValid ∧ d.dayNumber = number := by
  obtain ⟨year, dayOfYear, hyear, hday, rfl⟩ := exists_year number
  rw [← daysOf_monthLengths] at hday
  obtain ⟨i, hi, rest, hrest, rfl⟩ := exists_month hday
  have hlast : year ≤ 9999 := by
    refine Nat.le_of_not_lt fun hbeyond => ?_
    have hbefore := daysBeforeYear_mono (by decide) hbeyond
    rw [Nat.succ_eq_add_one, daysBeforeYear_end] at hbefore
    omega
  refine ⟨⟨year, i + 1, rest + 1⟩, ⟨hyear, hlast, Nat.succ_pos rest, ?_⟩, ?_⟩
  · rw [daysInMonth, if_neg (Nat.succ_ne_zero i), Nat.add_sub_cancel,
      List.getElem?_eq_getElem hi, Option.getD_some]
    exact hrest
  · rw [Date.dayNumber, daysBeforeMonth, Nat.add_assoc]
    rfl

theorem isValid_ofDayNumber {number : Nat} (h : number < dayCount) :
    (Date.ofDayNumber number).IsValid := by
  obtain ⟨d, hd, rfl⟩ := exists_date_of_lt h
  rwa [ofDayNumber_dayNumber hd]

theorem dayNumber_ofDayNumber {number : Nat} (h : number < dayCount) :
    (Date.ofDayNumber number).dayNumber = number := by
  obtain ⟨d, hd, rfl⟩ := exists_date_of_lt h
  rw [ofDayNumber_dayNumber hd]

end Calendar

namespace Timestamp

/-! ### Times of day -/

namespace Clock

theorem micros_lt {c : Clock} (h : c.IsValid) : c.micros < microsPerDay := by
  obtain ⟨hhour, hminute, hsecond, hmicro⟩ := h
  rw [micros, microsPerDay]
  omega

theorem ofMicros_micros {c : Clock} (h : c.IsValid) : ofMicros c.micros = c := by
  obtain ⟨hour, minute, second, micro⟩ := c
  obtain ⟨hhour, hminute, hsecond, hmicro⟩ := h
  dsimp only at hhour hminute hsecond hmicro
  simp only [ofMicros, micros, Clock.mk.injEq]
  omega

theorem isValid_ofMicros {micros : Nat} (h : micros < microsPerDay) :
    (ofMicros micros).IsValid := by
  rw [microsPerDay] at h
  refine ⟨?_, ?_, ?_, ?_⟩ <;> dsimp only [ofMicros] <;> omega

theorem micros_ofMicros (n : Nat) : (ofMicros n).micros = n := by
  simp only [ofMicros, micros]
  omega

end Clock

/-! ### Date-times -/

theorem day_lt (t : Timestamp) : t.micros / microsPerDay < Calendar.dayCount :=
  Nat.div_lt_of_lt_mul (Nat.mul_comm _ _ ▸ t.isCovered)

theorem isValid_date (t : Timestamp) : t.date.IsValid :=
  Calendar.isValid_ofDayNumber t.day_lt

theorem isValid_clock (t : Timestamp) : t.clock.IsValid :=
  Clock.isValid_ofMicros (Nat.mod_lt _ (by decide))

theorem ofMicros?_micros (t : Timestamp) : ofMicros? t.micros = some t := by
  have hcovered : (0 : Int) ≤ t.micros ∧
      (t.micros : Int) < (Calendar.dayCount * microsPerDay : Nat) :=
    ⟨Int.natCast_nonneg _, Int.ofNat_lt.mpr t.isCovered⟩
  rw [ofMicros?, dif_pos hcovered]
  rfl

theorem micros_eq (t : Timestamp) :
    t.micros = t.date.dayNumber * microsPerDay + t.clock.micros := by
  rw [date, Calendar.dayNumber_ofDayNumber t.day_lt, clock, Clock.micros_ofMicros, Nat.mul_comm]
  exact (Nat.div_add_mod _ _).symm

/-- A timestamp is that of its day and its time of day. -/
theorem ofDay?_date_clock (t : Timestamp) : ofDay? t.date.dayNumber t.clock = some t := by
  rw [ofDay?, if_pos t.isValid_clock, ← t.micros_eq]
  exact t.ofMicros?_micros

/-- Every date that exists, with every time of day, is that of a timestamp. -/
theorem exists_date_clock {date : Calendar.Date} {clock : Clock} (hdate : date.IsValid)
    (hclock : clock.IsValid) : ∃ t : Timestamp, t.date = date ∧ t.clock = clock := by
  have hday := Calendar.dayNumber_lt hdate
  have hmicros := Clock.micros_lt hclock
  have hcovered : date.dayNumber * microsPerDay + clock.micros <
      Calendar.dayCount * microsPerDay := by
    rw [microsPerDay] at hmicros ⊢
    omega
  have hparts := @Calendar.div_mod_of_lt _ date.dayNumber _ hmicros
  rw [Nat.mul_comm] at hparts
  refine ⟨⟨_, hcovered⟩, ?_, ?_⟩
  · rw [Timestamp.date, hparts.1, Calendar.ofDayNumber_dayNumber hdate]
  · rw [Timestamp.clock, hparts.2, Clock.ofMicros_micros hclock]

end Timestamp

end FeedMerge
