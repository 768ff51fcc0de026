import FeedMerge.Proofs.Result
import FeedMerge.Proofs.Text.Trimming
import FeedMerge.Proofs.Timestamp.Written
import FeedMerge.Timestamp.Source

/-!
# Local times brought to UTC

A date-time with an offset gives the timestamp of its moment in UTC, and none at all if that moment
lies before year 1 or after year 9999 (`ofLocal_eq_error_iff`). Texts in the form of ISO 8601 tell
their local time and their offset by what is written (`Tells`), and so the timestamp of such a text
is known from the calendar alone: the days and the microseconds of the local time, less the offset
(`instant`). Different texts of the same instant have the same timestamp, and timestamps are ordered
as the instants are.
-/

namespace FeedMerge.Timestamp

/-! ### Moments beyond the calendar -/

/-- The moment in UTC lies before year 1 or after year 9999. -/
def Local.IsBeyondCalendar (l : Local) : Prop :=
  (l.moment.micros : Int) < l.offset.getD 0 ∨
    (Calendar.dayCount * microsPerDay : Nat) ≤ (l.moment.micros : Int) - l.offset.getD 0

theorem ofLocal_eq_error_iff {l : Local} {error : RangeError} :
    ofLocal l = .error error ↔ l.IsBeyondCalendar := by
  unfold ofLocal Local.toUtc? ofMicros? Local.IsBeyondCalendar
  by_cases hcovered : 0 ≤ (l.moment.micros : Int) - l.offset.getD 0 ∧
      (l.moment.micros : Int) - l.offset.getD 0 < (Calendar.dayCount * microsPerDay : Nat)
  · simp only [hcovered, and_self, dite_true, reduceCtorEq, false_iff]
    omega
  · simp only [hcovered, dite_false, true_iff]
    omega

/-- Values that are date-times beyond the calendar at a reading of the clock; null and truth values
are no date-times. -/
def IsBeyondCalendar (now : Timestamp) (v : Json) : Prop :=
  v.kind ≠ .null ∧ v.kind ≠ .bool ∧
    ∃ l, readLocal now (Text.trimChars Text.isBlank v.plainText.toList) = .ok l ∧ l.IsBeyondCalendar

theorem ofText_eq_error_iff {now : Timestamp} {text : String} {error : RangeError} :
    ofText now text = .error error ↔
      ∃ l, readLocal now (Text.trimChars Text.isBlank text.toList) = .ok l ∧
        l.IsBeyondCalendar := by
  unfold ofText
  cases readLocal now (Text.trimChars Text.isBlank text.toList) with
  | error refusal => simp
  | ok l => simp [Except.map_eq_error, ofLocal_eq_error_iff]

theorem ofSource_eq_error_iff {now : Timestamp} {v : Json} {error : RangeError} :
    ofSource now (.value v) = .error error ↔ IsBeyondCalendar now v := by
  unfold IsBeyondCalendar
  cases v <;> simp [ofSource, Json.kind, ofText_eq_error_iff]

theorem ofLocal_eq_ok {l : Local} {t : Timestamp}
    (h : (t.micros : Int) = l.moment.micros - l.offset.getD 0) : ofLocal l = .ok t := by
  have hutc : l.toUtc? = some t := by
    rw [Local.toUtc?, ← h]
    exact t.ofMicros?_micros
  rw [ofLocal, hutc]

/-- Without an offset the local time is the timestamp. -/
theorem ofLocal_moment (t : Timestamp) : ofLocal ⟨t, none⟩ = .ok t :=
  ofLocal_eq_ok (Int.sub_zero _).symm

/-! ### Texts that tell a local time -/

/-- What may stand behind a local time for an offset of so many seconds. -/
inductive Marks : Int → List Char → Prop
  | untold : Marks 0 []
  | zulu : Marks 0 ['Z']
  | numeric {seconds : Int} (h : seconds.natAbs < 86400) : Marks seconds (offsetChars seconds)

/-- A text that tells a local time and its offset in seconds, between blank characters. -/
inductive Tells (l : Timestamp) (offset : Int) : String → Prop
  | intro {before mark after : List Char} (hmark : Marks offset mark)
      (hbefore : ∀ c ∈ before, Text.isBlank c = true)
      (hafter : ∀ c ∈ after, Text.isBlank c = true) :
      Tells l offset (.ofList (before ++ (l.toIso.toList ++ mark) ++ after))

/-- The microseconds from the start of year 1 to a local time with an offset in seconds. -/
def instant (l : Timestamp) (offset : Int) : Int :=
  (l.date.dayNumber * microsPerDay + l.clock.micros : Nat) - offset * 1000000

/-- Instants of the years 1 to 9999. -/
def IsCovered (instant : Int) : Prop :=
  (Calendar.daysBeforeYear 1 * microsPerDay : Nat) ≤ instant ∧
    instant < (Calendar.daysBeforeYear 10000 * microsPerDay : Nat)

instance (instant : Int) : Decidable (IsCovered instant) :=
  inferInstanceAs (Decidable (_ ∧ _))

theorem instant_eq (l : Timestamp) (offset : Int) :
    instant l offset = l.micros - offset * 1000000 := by
  rw [instant, l.micros_eq]

/-! ### Reading them -/

theorem isBlank_of_isDigit {c : Char} (h : c.isDigit = true) : Text.isBlank c = false := by
  simp only [Char.isDigit, ge_iff_le, Bool.and_eq_true, decide_eq_true_eq, UInt32.le_iff_toNat_le]
    at h
  have lower : 48 ≤ c.toNat := h.1
  have upper : c.toNat ≤ 57 := h.2
  simp only [Text.isBlank, Text.isWhite, Bool.or_eq_false_iff, Bool.and_eq_false_iff,
    decide_eq_false_iff_not, beq_eq_false_iff_ne]
  omega

/-- The characters of dates, times of day and offsets. -/
def IsPlain (c : Char) : Prop :=
  c.isDigit = true ∨ c = '-' ∨ c = ':' ∨ c = '.' ∨ c = 'T' ∨ c = '+'

theorem IsPlain.isBlank_eq_false {c : Char} (h : IsPlain c) : Text.isBlank c = false := by
  rcases h with hdigit | rfl | rfl | rfl | rfl | rfl
  · exact isBlank_of_isDigit hdigit
  all_goals rfl

theorem IsPlain.ne_zulu {c : Char} (h : IsPlain c) : c ≠ 'Z' := by
  rintro rfl
  simp [IsPlain] at h

theorem isPlain_of_mem_padded {width n : Nat} {c : Char} (h : c ∈ padded width n) : IsPlain c :=
  .inl (isDigit_of_mem_padded h)

theorem isPlain_of_mem_toIso {l : Timestamp} {c : Char} (h : c ∈ l.toIso.toList) : IsPlain c := by
  rw [toList_toIso, dateChars] at h
  simp only [List.mem_append, List.mem_cons] at h
  rcases h with ((h | rfl | h) | rfl | h) | rfl | h
  · exact isPlain_of_mem_padded h
  · exact .inr (.inl rfl)
  · exact isPlain_of_mem_padded h
  · exact .inr (.inl rfl)
  · exact isPlain_of_mem_padded h
  · simp [IsPlain]
  · rcases Iso.mem_clockChars h with hdigit | rfl | rfl
    · exact .inl hdigit
    · simp [IsPlain]
    · simp [IsPlain]

theorem isPlain_of_mem_offsetChars {seconds : Int} {c : Char} (h : c ∈ offsetChars seconds) :
    IsPlain c := by
  unfold offsetChars at h
  simp only [List.mem_append, List.mem_cons] at h
  rcases h with rfl | (h | rfl | h) | h
  · split <;> simp [IsPlain]
  · exact isPlain_of_mem_padded h
  · simp [IsPlain]
  · exact isPlain_of_mem_padded h
  · split at h
    · cases h
    · rcases List.mem_cons.mp h with rfl | h
      · simp [IsPlain]
      · exact isPlain_of_mem_padded h

theorem expandZulu_eq_self {chars : List Char} (h : ∀ c ∈ chars, IsPlain c) :
    Iso.expandZulu chars = chars := by
  induction chars with
  | nil => rfl
  | cons c chars ih =>
    obtain ⟨hc, hchars⟩ := List.forall_mem_cons.mp h
    rw [Iso.expandZulu, List.flatMap_cons, if_neg hc.ne_zulu]
    exact congrArg (c :: ·) (ih hchars)

theorem offsetChars_zero : offsetChars 0 = ['+', '0', '0', ':', '0', '0'] := by decide

/-- A mark is read as its offset; it has no blank character in it. -/
theorem Marks.read {l : Timestamp} {offset : Int} {mark : List Char} (h : Marks offset mark) :
    (∀ c ∈ mark, Text.isBlank c = false) ∧
      ∃ told : Option Int, told.getD 0 = offset * 1000000 ∧
        Iso.read? (Iso.expandZulu (l.toIso.toList ++ mark)) = some ⟨l, told⟩ := by
  have hplain : ∀ c ∈ l.toIso.toList, IsPlain c := fun c hc => isPlain_of_mem_toIso hc
  cases h with
  | untold =>
    refine ⟨List.forall_mem_nil _, none, rfl, ?_⟩
    rw [List.append_nil, expandZulu_eq_self hplain]
    exact Iso.read?_toIso l
  | zulu =>
    have hexpand : Iso.expandZulu (l.toIso.toList ++ ['Z']) = l.toIso.toList ++ offsetChars 0 := by
      rw [Iso.expandZulu, List.flatMap_append, offsetChars_zero]
      exact congrArg (· ++ ['+', '0', '0', ':', '0', '0']) (expandZulu_eq_self hplain)
    refine ⟨List.forall_mem_cons.mpr ⟨rfl, List.forall_mem_nil _⟩, some 0, rfl, ?_⟩
    rw [hexpand]
    exact Iso.read?_toIso_offset l (by decide)
  | numeric hseconds =>
    have hmark : ∀ c ∈ offsetChars offset, IsPlain c := fun c hc => isPlain_of_mem_offsetChars hc
    refine ⟨fun c hc => (hmark c hc).isBlank_eq_false, some (offset * 1000000), rfl, ?_⟩
    rw [expandZulu_eq_self fun c hc => (List.mem_append.mp hc).elim (hplain c) (hmark c)]
    exact Iso.read?_toIso_offset l hseconds

/-- A text is read as the local time and the offset that it tells, at whatever reading of the clock.
-/
theorem Tells.ofSource_eq {l : Timestamp} {offset : Int} {text : String} (h : Tells l offset text)
    (now : Timestamp) :
    ∃ told : Option Int, told.getD 0 = offset * 1000000 ∧
      ofSource now (.value (.string text)) = (ofLocal ⟨l, told⟩).map .ok := by
  obtain @⟨before, mark, after, hmark, hbefore, hafter⟩ := h
  obtain ⟨hblank, told, htold, hread⟩ := hmark.read (l := l)
  have hchars : ∀ c ∈ l.toIso.toList ++ mark, Text.isBlank c = false := fun c hc =>
    (List.mem_append.mp hc).elim (fun hc => (isPlain_of_mem_toIso hc).isBlank_eq_false) (hblank c)
  have htrim : Text.trimChars Text.isBlank (before ++ (l.toIso.toList ++ mark) ++ after) =
      l.toIso.toList ++ mark :=
    (Text.trimChars_append hbefore hafter).trans (Text.trimChars_eq_self hchars)
  refine ⟨told, htold, ?_⟩
  change ofText now (.ofList _) = _
  rw [ofText, String.toList_ofList, htrim, readLocal, hread]

variable {now later l l' t t' : Timestamp} {offset offset' : Int} {text text' : String}

theorem isCovered_iff {m : Int} :
    IsCovered m ↔ 0 ≤ m ∧ m < (Calendar.dayCount * microsPerDay : Nat) := by
  rw [IsCovered, Calendar.daysBeforeYear_end]
  rfl

theorem instant_zero (t : Timestamp) : instant t 0 = t.micros := by
  rw [instant_eq, Int.zero_mul, Int.sub_zero]

/-- Every instant that is covered is that of a timestamp in UTC. -/
theorem exists_timestamp {m : Int} (h : IsCovered m) : ∃ t : Timestamp, instant t 0 = m := by
  obtain ⟨hstart, hend⟩ := isCovered_iff.mp h
  refine ⟨⟨m.toNat, by omega⟩, ?_⟩
  rw [instant_zero]
  exact Int.toNat_of_nonneg hstart

theorem Tells.ofSource_eq_ok (h : Tells l offset text) (ht : instant t 0 = instant l offset) :
    ofSource now (.value (.string text)) = .ok (.ok t) := by
  obtain ⟨told, htold, hsource⟩ := h.ofSource_eq now
  have hlocal : ofLocal ⟨l, told⟩ = .ok t := by
    refine ofLocal_eq_ok ?_
    rw [htold, ← instant_zero, ht, instant_eq]
  rw [hsource, hlocal]
  rfl

theorem Tells.ofSource_eq_error (h : Tells l offset text)
    (hcovered : ¬ IsCovered (instant l offset)) :
    ofSource now (.value (.string text)) = .error .beyondCalendar := by
  obtain ⟨told, htold, hsource⟩ := h.ofSource_eq now
  have hbeyond : Local.IsBeyondCalendar ⟨l, told⟩ := by
    rw [isCovered_iff, instant_eq] at hcovered
    rw [Local.IsBeyondCalendar, htold]
    dsimp only
    omega
  rw [hsource, ofLocal_eq_error_iff.mpr hbeyond]
  rfl

/-- The result of a text tells nothing but the instant. -/
theorem Tells.instant_eq_of_ok (h : Tells l offset text)
    (ht : ofSource now (.value (.string text)) = .ok (.ok t)) : instant t 0 = instant l offset := by
  by_cases hcovered : IsCovered (instant l offset)
  · obtain ⟨t', ht'⟩ := exists_timestamp hcovered
    rw [h.ofSource_eq_ok ht'] at ht
    cases ht
    exact ht'
  · rw [h.ofSource_eq_error hcovered] at ht
    cases ht

theorem Tells.ofSource_congr (h : Tells l offset text) (h' : Tells l' offset' text')
    (heq : instant l offset = instant l' offset') :
    ofSource now (.value (.string text)) = ofSource later (.value (.string text')) := by
  by_cases hcovered : IsCovered (instant l offset)
  · obtain ⟨t, ht⟩ := exists_timestamp hcovered
    rw [h.ofSource_eq_ok ht, h'.ofSource_eq_ok (ht.trans heq)]
  · rw [h.ofSource_eq_error hcovered, h'.ofSource_eq_error (heq ▸ hcovered)]

theorem le_iff_instant_le (t t' : Timestamp) : t ≤ t' ↔ instant t 0 ≤ instant t' 0 := by
  rw [instant_zero, instant_zero]
  exact Int.ofNat_le.symm

/-- Every date of the years 1 to 9999 at every time of day is a local time. A text that tells a
local time and an offset of whole seconds below a day, with blank characters around it, gives the
timestamp of the instant if it lies in those years, and is out of range otherwise; without an
offset, or with one of zero however it is written, it gives the local time itself. So two texts of
one instant give the same result, and timestamps are ordered as the instants are. The clock does not
matter, and may be another one for each text. -/
theorem iso_texts_are_brought_to_utc (now later : Timestamp) :
    (∀ (date : Calendar.Date) (clock : Clock), date.IsValid → clock.IsValid →
      ∃ l : Timestamp, l.date = date ∧ l.clock = clock) ∧
    (∀ (l : Timestamp) (offset : Int) (text : String), Tells l offset text →
      (IsCovered (instant l offset) → ∃ t : Timestamp,
        ofSource now (.value (.string text)) = .ok (.ok t) ∧ instant t 0 = instant l offset) ∧
      (¬ IsCovered (instant l offset) →
        ofSource now (.value (.string text)) = .error .beyondCalendar)) ∧
    (∀ (l : Timestamp) (text : String), Tells l 0 text →
      ofSource now (.value (.string text)) = .ok (.ok l)) ∧
    (∀ (l l' : Timestamp) (offset offset' : Int) (text text' : String), Tells l offset text →
      Tells l' offset' text' →
        (instant l offset = instant l' offset' →
          ofSource now (.value (.string text)) = ofSource later (.value (.string text'))) ∧
        ∀ t t' : Timestamp, ofSource now (.value (.string text)) = .ok (.ok t) →
          ofSource later (.value (.string text')) = .ok (.ok t') →
            (t ≤ t' ↔ instant l offset ≤ instant l' offset')) := by
  refine ⟨fun date clock => exists_date_clock, fun l offset text h => ⟨fun hcovered => ?_,
    h.ofSource_eq_error⟩, fun l text h => h.ofSource_eq_ok rfl,
    fun l l' offset offset' text text' h h' => ⟨h.ofSource_congr h', fun t t' ht ht' => ?_⟩⟩
  · obtain ⟨t, ht⟩ := exists_timestamp hcovered
    exact ⟨t, h.ofSource_eq_ok ht, ht⟩
  · rw [le_iff_instant_le, h.instant_eq_of_ok ht, h'.instant_eq_of_ok ht']

/-- Half past eleven in the evening of a leap day. -/
def leapEvening : Timestamp := ⟨63844846200500000, by decide⟩

/-- An hour later. -/
def leapNight : Timestamp := ⟨63844849800500000, by decide⟩

/-- At an hour behind UTC the evening of a leap day is the first of March. -/
theorem leap_evening_is_brought_to_utc :
    leapEvening.date = ⟨2024, 2, 29⟩ ∧
      Tells leapEvening (-3600) " 2024-02-29T23:30:00.500000-01:00\n" ∧
      IsCovered (instant leapEvening (-3600)) ∧
      ∃ t : Timestamp,
        ofSource leapEvening (.value (.string " 2024-02-29T23:30:00.500000-01:00\n")) =
          .ok (.ok t) ∧ t.toIso = "2024-03-01T00:30:00.500000" := by
  have htext :
      String.ofList ([' '] ++ (leapEvening.toIso.toList ++ offsetChars (-3600)) ++ ['\n']) =
        " 2024-02-29T23:30:00.500000-01:00\n" := by
    decide +kernel
  have htells : Tells leapEvening (-3600) " 2024-02-29T23:30:00.500000-01:00\n" :=
    htext ▸ .intro (.numeric (by decide)) (List.forall_mem_cons.mpr ⟨rfl, List.forall_mem_nil _⟩)
      (List.forall_mem_cons.mpr ⟨rfl, List.forall_mem_nil _⟩)
  have hcovered : IsCovered (instant leapEvening (-3600)) := by decide
  obtain ⟨t, hsource, ht⟩ :=
    ((iso_texts_are_brought_to_utc leapEvening leapNight).2.1 _ _ _ htells).1 hcovered
  refine ⟨by decide, htells, hcovered, t, hsource, ?_⟩
  have hmicros : (t.micros : Int) = (63844849800500000 : Nat) := by
    rw [← instant_zero, ht]
    decide
  obtain ⟨micros, hlt⟩ := t
  obtain rfl := Int.ofNat.inj hmicros
  change leapNight.toIso = _
  decide +kernel

end FeedMerge.Timestamp
