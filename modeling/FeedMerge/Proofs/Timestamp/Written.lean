import FeedMerge.Proofs.Calendar
import FeedMerge.Timestamp.Iso
import Mathlib.Data.List.TakeWhile

/-!
# Date-times are read as they were written

A date-time is written as its date, a `T`, and its time of day, and perhaps the offset from UTC
behind them. The reader takes the parts off again one by one: numbers of two, four and six digits,
the date by its length, the time up to the sign of the offset, and the offset. So what was written
is read as the same local time with the same offset (`Iso.read?_toIso_offset`).
-/

namespace FeedMerge.Timestamp

/-! ### Numbers with zeros before them -/

theorem padded_succ {width : Nat} (hwidth : 0 < width) (n : Nat) :
    padded (width + 1) n = padded width (n / 10) ++ [Nat.digitChar (n % 10)] := by
  unfold padded
  dsimp only
  by_cases hsmall : n < 10
  · rw [Nat.toDigits_of_lt_base hsmall, Nat.div_eq_of_lt hsmall, Nat.mod_eq_of_lt hsmall,
      Nat.toDigits_zero, List.length_singleton, List.length_singleton, Nat.add_sub_cancel,
      ← List.replicate_succ', Nat.sub_add_cancel hwidth]
  · rw [Nat.toDigits_of_base_le (by decide) (by omega), List.length_append, List.length_singleton,
      Nat.add_sub_add_right, List.append_assoc]

theorem padded_two {n : Nat} (h : n < 100) :
    padded 2 n = [Nat.digitChar (n / 10), Nat.digitChar (n % 10)] := by
  have hfirst : padded 1 (n / 10) = [Nat.digitChar (n / 10)] := by
    unfold padded
    rw [Nat.toDigits_of_lt_base (by omega)]
    rfl
  rw [padded_succ (by decide), hfirst]
  rfl

theorem padded_four (n : Nat) :
    padded 4 n = padded 2 (n / 100) ++ [Nat.digitChar (n / 10 % 10), Nat.digitChar (n % 10)] := by
  rw [padded_succ (by decide), padded_succ (by decide), Nat.div_div_eq_div_mul, List.append_assoc]
  rfl

theorem isDigit_of_mem_padded {width n : Nat} {c : Char} (h : c ∈ padded width n) :
    c.isDigit = true := by
  rcases List.mem_append.mp h with hzero | hdigit
  · rw [List.eq_of_mem_replicate hzero]
    rfl
  · exact Nat.isDigit_of_mem_toDigits (by decide) (by decide) hdigit

theorem length_padded {width n : Nat} (hwidth : 0 < width) (h : n < Nat.pow 10 width) :
    (padded width n).length = width := by
  have hle := (Nat.length_toDigits_le_iff (b := 10) (by decide) hwidth).mpr h
  rw [padded, List.length_append, List.length_replicate]
  exact Nat.sub_add_cancel hle

theorem ofDigits_padded (width n : Nat) : Decimal.ofDigits (padded width n) = n := by
  rw [padded, Decimal.ofDigits, Nat.ofDigitChars_append, Nat.ofDigitChars_replicate_zero,
    Nat.mul_zero]
  exact Decimal.ofDigits_toDigits n

/-! ### What is written -/

/-- A date as it is written. -/
def dateChars (d : Calendar.Date) : List Char :=
  padded 4 d.year ++ '-' :: padded 2 d.month ++ '-' :: padded 2 d.day

/-- A time of day as it is written. -/
def clockChars (c : Clock) : List Char :=
  padded 2 c.hour ++ ':' :: padded 2 c.minute ++ ':' :: padded 2 c.second ++
    if c.micro = 0 then [] else '.' :: padded 6 c.micro

/-- An offset of so many seconds as it is written: its sign, hours and minutes, and its seconds
unless they are zero. -/
def offsetChars (seconds : Int) : List Char :=
  let clock := Clock.ofMicros (seconds.natAbs * 1000000)
  (if seconds < 0 then '-' else '+') :: (padded 2 clock.hour ++ ':' :: padded 2 clock.minute ++
    if clock.second = 0 then [] else ':' :: padded 2 clock.second)

theorem toList_toIso (t : Timestamp) :
    t.toIso.toList = dateChars t.date ++ 'T' :: clockChars t.clock := by
  rw [toIso, String.toList_ofList]
  simp only [dateChars, clockChars, List.append_assoc, List.cons_append]

namespace Iso

variable {n : Nat} {rest : List Char}

/-! ### Numbers -/

theorem twoDigits?_padded (h : n < 100) (rest : List Char) :
    twoDigits? (padded 2 n ++ rest) = some (n, rest) := by
  have hdigits := ofDigits_padded 2 n
  rw [padded_two h] at hdigits ⊢
  have hfirst : (Nat.digitChar (n / 10)).isDigit = true := by
    rw [Nat.isDigit_digitChar]
    exact decide_eq_true (by omega)
  have hsecond : (Nat.digitChar (n % 10)).isDigit = true := by
    rw [Nat.isDigit_digitChar]
    exact decide_eq_true (by omega)
  simp only [List.cons_append, List.nil_append, twoDigits?, hfirst, hsecond, Bool.and_self, if_true,
    hdigits]

theorem fourDigits?_padded (h : n < 10000) (rest : List Char) :
    fourDigits? (padded 4 n ++ rest) = some (n, rest) := by
  have hlow : [Nat.digitChar (n / 10 % 10), Nat.digitChar (n % 10)] = padded 2 (n % 100) := by
    rw [padded_two (Nat.mod_lt n (by decide))]
    congr 3 <;> omega
  rw [padded_four, hlow, List.append_assoc, fourDigits?]
  simp only [twoDigits?_padded (show n / 100 < 100 by omega),
    twoDigits?_padded (show n % 100 < 100 by omega), Option.bind_eq_bind, Option.bind_some]
  exact congrArg (fun n => some (n, rest)) (Nat.div_add_mod n 100)

theorem readFraction?_padded (h : n < 1000000) : readFraction? (padded 6 n) = some (n, true) := by
  have hlength : (padded 6 n).length = 6 := length_padded (by decide) h
  have hdigits : (padded 6 n).all Char.isDigit = true :=
    List.all_eq_true.mpr fun c hc => isDigit_of_mem_padded hc
  have hbehind : (padded 6 n).dropWhile Char.isDigit = [] :=
    List.dropWhile_eq_nil_iff.mpr fun c hc => isDigit_of_mem_padded hc
  have hscale : Nat.pow 10 (6 - (padded 6 n).length) = 1 := by rw [hlength]
  have hall : (padded 6 n).take 6 = padded 6 n := List.take_of_length_le (Nat.le_of_eq hlength)
  rw [readFraction?, hall, if_pos hdigits, ofDigits_padded, hscale, hbehind, Nat.mul_one]
  rfl

/-! ### Times of day -/

theorem readParts?_last (colons : Option Bool) (count : Nat) (h : n < 100) :
    readParts? colons (count + 1) (padded 2 n) = some ([n], 0, true) := by
  have hdigits := twoDigits?_padded h []
  rw [List.append_nil] at hdigits
  rw [readParts?, hdigits]

theorem readParts?_colon (colons : Option Bool) (hcolons : colons.getD true = true) {count : Nat}
    {parts : List Nat} {micro : Nat} {complete : Bool} (h : n < 100) (hne : rest ≠ [])
    (hrest : readParts? (some true) count rest = some (parts, micro, complete)) :
    readParts? colons (count + 1) (padded 2 n ++ ':' :: rest) =
      some (n :: parts, micro, complete) := by
  have hseparated : colons.getD (decide (':' = ':')) = true := by
    rw [decide_eq_true rfl]
    exact hcolons
  rw [readParts?, twoDigits?_padded h]
  cases rest with
  | nil => exact absurd rfl hne
  | cons c rest =>
    dsimp only
    rw [hseparated, hrest]
    rfl

theorem readParts?_point (count : Nat) (h : n < 100) {micro : Nat} (hmicro : micro < 1000000) :
    readParts? (some true) (count + 1) (padded 2 n ++ '.' :: padded 6 micro) =
      some ([n], micro, true) := by
  have hlength : (padded 6 micro).length = 6 := length_padded (by decide) hmicro
  have hfraction := readFraction?_padded hmicro
  rw [readParts?, twoDigits?_padded h]
  cases hdigits : padded 6 micro with
  | nil =>
    rw [hdigits] at hlength
    cases hlength
  | cons c rest =>
    rw [hdigits] at hfraction
    dsimp only
    rw [hfraction]
    rfl

theorem padded_ne_nil (width n : Nat) : padded width n ≠ [] := by
  intro h
  have hdigits := (List.append_eq_nil_iff.mp h).2
  exact Nat.toDigits_ne_nil hdigits

theorem readClock?_clockChars {c : Clock} (h : c.IsValid) :
    readClock? (clockChars c) = some ⟨c, true⟩ := by
  obtain ⟨hhour, hminute, hsecond, hmicro⟩ := h
  have hlast : ∃ last, clockChars c = padded 2 c.hour ++ ':' :: (padded 2 c.minute ++ ':' :: last) ∧
      last ≠ [] ∧ readParts? (some true) 1 last = some ([c.second], c.micro, true) := by
    by_cases hzero : c.micro = 0
    · refine ⟨padded 2 c.second, ?_, padded_ne_nil _ _, ?_⟩
      · simp only [clockChars, if_pos hzero, List.append_nil, List.append_assoc, List.cons_append]
      · rw [hzero]
        exact readParts?_last _ _ (by omega)
    · refine ⟨padded 2 c.second ++ '.' :: padded 6 c.micro, ?_, ?_, ?_⟩
      · simp only [clockChars, if_neg hzero, List.append_assoc, List.cons_append]
      · exact List.append_ne_nil_of_left_ne_nil (padded_ne_nil _ _) _
      · exact readParts?_point _ (by omega) hmicro
  obtain ⟨last, hchars, hne, hseconds⟩ := hlast
  have hminutes := readParts?_colon (some true) rfl (show c.minute < 100 by omega) hne hseconds
  have hhours := readParts?_colon none rfl (show c.hour < 100 by omega)
    (List.append_ne_nil_of_left_ne_nil (padded_ne_nil _ _) _) hminutes
  rw [readClock?, hchars, hhours]
  rfl

/-! ### Offsets -/

theorem readClock?_offset {hour minute second : Nat} (hhour : hour < 100) (hminute : minute < 100)
    (hsecond : second < 100) :
    readClock? (padded 2 hour ++ ':' :: padded 2 minute ++
      if second = 0 then [] else ':' :: padded 2 second) =
        some ⟨⟨hour, minute, second, 0⟩, true⟩ := by
  by_cases hzero : second = 0
  · subst hzero
    have hminutes := readParts?_last (some true) 1 hminute
    have hhours := readParts?_colon none rfl hhour (padded_ne_nil _ _) hminutes
    rw [readClock?, if_pos rfl, List.append_nil, hhours]
    rfl
  · have hseconds := readParts?_last (some true) 0 hsecond
    have hminutes := readParts?_colon (some true) rfl hminute (padded_ne_nil _ _) hseconds
    have hhours := readParts?_colon none rfl hhour
      (List.append_ne_nil_of_left_ne_nil (padded_ne_nil _ _) _) hminutes
    rw [readClock?, if_neg hzero, List.append_assoc, List.cons_append, hhours]
    rfl

/-- A sign begins an offset, and what is behind it is read as the offset. -/
theorem exists_offset {seconds : Int} (h : seconds.natAbs < 86400) :
    ∃ sign body, offsetChars seconds = sign :: body ∧ isSign sign = true ∧
      readOffset? sign body = some (seconds * 1000000) := by
  have hvalid : (Clock.ofMicros (seconds.natAbs * 1000000)).IsValid :=
    Clock.isValid_ofMicros (by rw [microsPerDay]; omega)
  have hmicros := Clock.micros_ofMicros (seconds.natAbs * 1000000)
  have hwhole : (Clock.ofMicros (seconds.natAbs * 1000000)).micro = 0 := by
    simp only [Clock.ofMicros]
    omega
  refine ⟨if seconds < 0 then '-' else '+', _, rfl, ?_, ?_⟩
  · split <;> rfl
  · generalize Clock.ofMicros (seconds.natAbs * 1000000) = clock at hvalid hmicros hwhole
    obtain ⟨hour, minute, second, micro⟩ := clock
    obtain ⟨hhour, hminute, hsecond, -⟩ := hvalid
    obtain rfl : micro = 0 := hwhole
    dsimp only at hhour hminute hsecond
    rw [readOffset?, readClock?_offset (Nat.lt_trans hhour (by decide))
      (Nat.lt_trans hminute (by decide)) (Nat.lt_trans hsecond (by decide))]
    dsimp only
    -- a whole number of seconds is none, or at least one
    have hmark : offsetMicros ⟨hour, minute, second, 0⟩ = seconds.natAbs * 1000000 := by
      rw [offsetMicros, hmicros]
      split <;> omega
    have hbound : seconds.natAbs * 1000000 < microsPerDay := by
      rw [microsPerDay]
      omega
    rw [hmark, if_pos hbound]
    by_cases hnegative : seconds < 0
    · rw [if_pos hnegative, if_pos rfl]
      congr 1
      omega
    · rw [if_neg hnegative, if_neg (by decide)]
      congr 1
      omega

/-! ### Dates -/

theorem digitChar_ne {n : Nat} (h : n < 10) {c : Char} (hc : c.isDigit = false) :
    Nat.digitChar n ≠ c := by
  intro heq
  have hdigit : (Nat.digitChar n).isDigit = true := by
    rw [Nat.isDigit_digitChar]
    exact decide_eq_true h
  rw [heq, hc] at hdigit
  cases hdigit

theorem month_le {d : Calendar.Date} (h : d.IsValid) : d.month ≤ 12 := by
  obtain ⟨hi, hmonth, -⟩ := h.exists_month
  have hlength : (Calendar.monthLengths (Calendar.isLeap d.year)).length = 12 := rfl
  omega

theorem day_le {d : Calendar.Date} (h : d.IsValid) : d.day ≤ 31 := by
  obtain ⟨hi, hmonth, hday⟩ := h.exists_month
  have hlengths : ∀ length ∈ Calendar.monthLengths (Calendar.isLeap d.year), length ≤ 31 := by
    cases Calendar.isLeap d.year <;> decide
  have hle := hlengths _ (List.getElem_mem hi)
  omega

theorem readDate?_dateChars {d : Calendar.Date} (h : d.IsValid) :
    readDate? (dateChars d) = some d.dayNumber := by
  have hmonth := month_le h
  have hday := day_le h
  have hyear := h.2.1
  -- the digit behind the year tells a calendar date from a week date
  have hmark : Nat.digitChar (d.month / 10) ≠ 'W' := digitChar_ne (by omega) rfl
  have hdigits := twoDigits?_padded (show d.month < 100 by omega) ('-' :: padded 2 d.day)
  have hlast := twoDigits?_padded (show d.day < 100 by omega) []
  rw [padded_two (show d.month < 100 by omega)] at hdigits
  rw [List.append_nil] at hlast
  rw [dateChars, List.append_assoc, readDate?, fourDigits?_padded (by omega),
    padded_two (show d.month < 100 by omega)]
  simp only [Option.bind_eq_bind, Option.bind_some, List.cons_append, List.nil_append]
  generalize Nat.digitChar (d.month / 10) = tens at hmark hdigits
  split
  · rename_i heq
    cases heq
    exact absurd rfl hmark
  · rename_i heq
    cases heq
  · rename_i heq
    cases heq
    simp only [List.cons_append, List.nil_append] at hdigits
    rw [hdigits]
    simp only [Option.bind_some, hlast]
    exact if_pos h
  · rename_i hne
    exact absurd rfl (hne _)

theorem length_dateChars {d : Calendar.Date} (h : d.IsValid) : (dateChars d).length = 10 := by
  have hyear : (padded 4 d.year).length = 4 := length_padded (by decide) (Nat.lt_succ_of_le h.2.1)
  have hmonth := month_le h
  have hday := day_le h
  simp only [dateChars, padded_two (show d.month < 100 by omega),
    padded_two (show d.day < 100 by omega), List.length_append, List.length_cons, List.length_nil,
    hyear]

theorem dateLength?_dateChars {d : Calendar.Date} (h : d.IsValid) {rest : List Char}
    (hrest : rest ≠ []) : dateLength? (dateChars d ++ rest) = some 10 := by
  have hlength := length_dateChars h
  have hlong : 10 < (dateChars d ++ rest).length := by
    have hpos := List.length_pos_iff.mpr hrest
    rw [List.length_append]
    omega
  have hyear : (padded 4 d.year).length = 4 := length_padded (by decide) (Nat.lt_succ_of_le h.2.1)
  have hmonth := month_le h
  have hhyphen : (dateChars d ++ rest)[4]? = some '-' := by
    rw [List.getElem?_append_left (by omega), dateChars, List.append_assoc,
      List.getElem?_append_right (by omega), hyear]
    rfl
  have hdigit : (dateChars d ++ rest)[5]? = some (Nat.digitChar (d.month / 10)) := by
    rw [List.getElem?_append_left (by omega), dateChars, List.append_assoc,
      List.getElem?_append_right (by omega), hyear, padded_two (by omega)]
    rfl
  have hmark : Nat.digitChar (d.month / 10) ≠ 'W' := digitChar_ne (by omega) rfl
  rw [dateLength?, if_neg (by omega), if_neg (by omega), if_pos hhyphen, hdigit,
    if_neg (fun heq => hmark (Option.some.inj heq))]

/-! ### Date-times -/

variable {clock : Clock}

theorem mem_clockChars {c : Char} (h : c ∈ clockChars clock) :
    c.isDigit = true ∨ c = ':' ∨ c = '.' := by
  unfold clockChars at h
  simp only [List.mem_append, List.mem_cons] at h
  rcases h with ((h | rfl | h) | rfl | h) | h
  · exact .inl (isDigit_of_mem_padded h)
  · exact .inr (.inl rfl)
  · exact .inl (isDigit_of_mem_padded h)
  · exact .inr (.inl rfl)
  · exact .inl (isDigit_of_mem_padded h)
  · split at h
    · cases h
    · rcases List.mem_cons.mp h with rfl | h
      · exact .inr (.inr rfl)
      · exact .inl (isDigit_of_mem_padded h)

theorem isSign_of_mem_clockChars {c : Char} (h : c ∈ clockChars clock) : isSign c = false := by
  rcases mem_clockChars h with hdigit | rfl | rfl
  · rw [isSign, Bool.or_eq_false_iff, decide_eq_false_iff_not, decide_eq_false_iff_not]
    constructor
    · rintro rfl
      cases hdigit
    · rintro rfl
      cases hdigit
  · rfl
  · rfl

theorem readTime?_clockChars (h : clock.IsValid) :
    readTime? (clockChars clock) = some (clock, none) := by
  have hall : ∀ c ∈ clockChars clock, (!isSign c) = true := fun c hc => by
    rw [isSign_of_mem_clockChars hc]
    rfl
  have htime : (clockChars clock).takeWhile (fun c => !isSign c) = clockChars clock :=
    List.takeWhile_eq_self_iff.mpr hall
  have hbehind : (clockChars clock).dropWhile (fun c => !isSign c) = [] :=
    List.dropWhile_eq_nil_iff.mpr hall
  rw [readTime?, htime, hbehind, readClock?_clockChars h]
  rfl

theorem readTime?_offset (h : clock.IsValid) {seconds : Int} (hseconds : seconds.natAbs < 86400) :
    readTime? (clockChars clock ++ offsetChars seconds) =
      some (clock, some (seconds * 1000000)) := by
  obtain ⟨sign, body, hchars, hsign, hoffset⟩ := exists_offset hseconds
  have hall : ∀ c ∈ clockChars clock, (!isSign c) = true := fun c hc => by
    rw [isSign_of_mem_clockChars hc]
    rfl
  have htime : (clockChars clock ++ sign :: body).takeWhile (fun c => !isSign c) =
      clockChars clock := by
    rw [List.takeWhile_append_of_pos hall]
    simp [hsign]
  have hbehind : (clockChars clock ++ sign :: body).dropWhile (fun c => !isSign c) =
      sign :: body := by
    rw [List.dropWhile_append_of_pos hall]
    simp [hsign]
  rw [readTime?, hchars, htime, hbehind, readClock?_clockChars h]
  dsimp only
  rw [hoffset]
  rfl

/-- What stands behind the date and the time of day decides about the offset. -/
theorem read?_toIso_append {t : Timestamp} {mark : List Char} {offset : Option Int}
    (h : readTime? (clockChars t.clock ++ mark) = some (t.clock, offset)) :
    read? (t.toIso.toList ++ mark) = some ⟨t, offset⟩ := by
  have hlength := length_dateChars t.isValid_date
  have hdate := readDate?_dateChars t.isValid_date
  have hmoment := t.ofDay?_date_clock
  rw [toList_toIso, List.append_assoc, List.cons_append, read?,
    dateLength?_dateChars t.isValid_date (List.cons_ne_nil _ _), Option.bind_eq_bind,
    Option.bind_some, List.take_left' hlength, List.drop_left' hlength, hdate, Option.bind_some]
  dsimp only
  rw [h]
  dsimp only [Option.bind_eq_bind, Option.bind_some]
  rw [hmoment]
  rfl

theorem read?_toIso (t : Timestamp) : read? t.toIso.toList = some ⟨t, none⟩ := by
  have hread := @read?_toIso_append t [] none
  rw [List.append_nil, List.append_nil] at hread
  exact hread (readTime?_clockChars t.isValid_clock)

theorem read?_toIso_offset (t : Timestamp) {seconds : Int} (h : seconds.natAbs < 86400) :
    read? (t.toIso.toList ++ offsetChars seconds) = some ⟨t, some (seconds * 1000000)⟩ :=
  read?_toIso_append (readTime?_offset t.isValid_clock h)

end Iso

end FeedMerge.Timestamp
