import FeedMerge.Proofs.Decimal.Arithmetic
import FeedMerge.Proofs.Summary.Grouping

/-!
# When there is an average

An average is a compensated sum by a count. What decides whether it is a number is the sum alone: a
sum that is a number gives an average that is one, and a sum that has become infinite, or no number,
at any value stays so to the end. So a summary keeps what its counts promise exactly if no running
sum of its readings leaves the doubles.

As long as the values do not add up to more than half of the greatest power of two, none does. Each
value costs a few units of rounding, which the carry pays back but for three, and the average is
within seven units of the exact one.
-/

namespace FeedMerge

open Double

namespace CompensatedSum

variable {values : List Float}

/-! ### Sums that are numbers -/

/-- All running sums of some values are numbers. -/
def StaysFinite (values : List Float) : Prop :=
  ∀ first, first <+: values → (first.foldl add zero).sum.isFinite = true

theorem not_isFinite_foldl_add {s : CompensatedSum} (h : s.sum.isFinite = false)
    (values : List Float) : (values.foldl add s).sum.isFinite = false := by
  induction values generalizing s with
  | nil => exact h
  | cons value values ih => exact ih (not_isFinite_add h)

/-- A sum never comes back from where there are no numbers, so the last one tells of all. -/
theorem staysFinite_iff :
    StaysFinite values ↔ (values.foldl add zero).sum.isFinite = true := by
  constructor
  · exact fun h => h values List.prefix_rfl
  · rintro hlast first ⟨rest, rfl⟩
    rw [List.foldl_append] at hlast
    by_contra hfirst
    rw [not_isFinite_foldl_add (Bool.not_eq_true _ ▸ hfirst) rest] at hlast
    cases hlast

/-! ### How far off a sum is -/

/-- The exact sum of some values. -/
def total (values : List Float) : ℚ := (values.map toRat).sum

/-- The sum of the magnitudes of some values. -/
def magnitude (values : List Float) : ℚ := (values.map fun v => |toRat v|).sum

theorem total_append (values : List Float) (v : Float) :
    total (values ++ [v]) = total values + toRat v := by
  simp [total]

theorem magnitude_append (values : List Float) (v : Float) :
    magnitude (values ++ [v]) = magnitude values + |toRat v| := by
  simp [magnitude]

theorem abs_total_le (values : List Float) : |total values| ≤ magnitude values := by
  induction values with
  | nil => simp [total, magnitude]
  | cons v values ih =>
    simp only [total, magnitude, List.map_cons, List.sum_cons] at ih ⊢
    exact (abs_add_le _ _).trans (add_le_add_right ih _)

theorem magnitude_nonneg (values : List Float) : 0 ≤ magnitude values :=
  (abs_nonneg _).trans (abs_total_le values)

/-- A compensated sum of some values is a number, and what it owes is at most three units. Without
what it owes it is off by at most three units a value. -/
structure Tracks (η : ℚ) (values : List Float) (s : CompensatedSum) : Prop where
  sum : s.sum.isFinite = true
  carry : s.carry.isFinite = true
  carry_le : |toRat s.carry| ≤ 3 * η
  close : |toRat s.sum - toRat s.carry - total values| ≤ 3 * values.length * η

theorem tracks_zero {η : ℚ} (hη : 0 ≤ η) : Tracks η [] zero := by
  have hzero : toRat 0.0 = 0 := by decide
  refine ⟨by decide, by decide, ?_, ?_⟩
  · rw [show zero.carry = 0.0 from rfl, hzero]
    simpa using hη
  · rw [show zero.carry = 0.0 from rfl, show zero.sum = 0.0 from rfl, hzero]
    simp [total]

/-- One more value keeps the sum on track, as long as there is room for it. -/
theorem Tracks.add {N : ℤ} (hN : -1021 ≤ N) (hmax : N ≤ 1023) {s : CompensatedSum}
    (h : Tracks (2 ^ (N - 53)) values s) {v : Float} (hv : v.isFinite = true)
    (hroom : magnitude (values ++ [v]) + (3 * values.length + 7) * 2 ^ (N - 53) ≤ 2 ^ N) :
    Tracks (2 ^ (N - 53)) (values ++ [v]) (s.add v) := by
  have hη : (0 : ℚ) < 2 ^ (N - 53) := zpow_pos (N - 53)
  have hcount : (0 : ℚ) ≤ values.length * 2 ^ (N - 53) := by positivity
  have htotal := abs_le.mp (abs_total_le values)
  have hnonneg := magnitude_nonneg values
  have hcarry := abs_le.mp h.carry_le
  have hclose := abs_le.mp h.close
  have hvalue := abs_le.mp (le_refl |toRat v|)
  have hpos := abs_nonneg (toRat v)
  rw [magnitude_append] at hroom
  unfold CompensatedSum.add
  dsimp only
  -- the four operations in turn, each with an error of less than a unit
  obtain ⟨hy, hcorrected⟩ := toRat_sub hv h.carry hN hmax (by rw [abs_lt]; constructor <;> linarith)
  generalize v - s.carry = y at hy hcorrected
  have hcorrected := abs_lt.mp hcorrected
  obtain ⟨ht, hadded⟩ := toRat_add h.sum hy hN hmax (by rw [abs_lt]; constructor <;> linarith)
  generalize s.sum + y = t at ht hadded
  have hadded := abs_lt.mp hadded
  obtain ⟨hu, hgained⟩ := toRat_sub ht h.sum hN hmax (by rw [abs_lt]; constructor <;> linarith)
  generalize t - s.sum = u at hu hgained
  have hgained := abs_lt.mp hgained
  obtain ⟨hw, howed⟩ := toRat_sub hu hy hN hmax (by rw [abs_lt]; constructor <;> linarith)
  generalize u - y = w at hw howed
  have howed := abs_lt.mp howed
  rw [isNaN_of_isFinite hw]
  refine ⟨ht, hw, ?_, ?_⟩
  · change |toRat w| ≤ _
    rw [abs_le]
    constructor <;> linarith
  · change |toRat t - toRat w - total (values ++ [v])| ≤ _
    rw [total_append, List.length_append, List.length_singleton, abs_le]
    push_cast
    constructor <;> linarith

/-- Values whose magnitudes leave room for the rounding are summed up on track. -/
theorem tracks_foldl_add {N : ℤ} (hN : -1021 ≤ N) (hmax : N ≤ 1023)
    (hfinite : ∀ v ∈ values, v.isFinite = true)
    (hroom : magnitude values + (3 * values.length + 4) * 2 ^ (N - 53) ≤ 2 ^ N) :
    Tracks (2 ^ (N - 53)) values (values.foldl CompensatedSum.add zero) := by
  have hη : (0 : ℚ) < 2 ^ (N - 53) := zpow_pos (N - 53)
  induction values using List.reverseRecOn with
  | nil => exact tracks_zero hη.le
  | append_singleton values v ih =>
    have hpos := abs_nonneg (toRat v)
    rw [List.length_append, List.length_singleton] at hroom
    push_cast at hroom
    rw [List.foldl_append]
    refine (ih (fun w hw => hfinite w (List.mem_append_left _ hw)) ?_).add hN hmax
      (hfinite v (by simp)) (by linarith)
    rw [magnitude_append] at hroom
    linarith

/-- The exponent is that of the least power of two that is at least twice the magnitudes. -/
theorem room_of_magnitude_le {N : ℤ} (hmagnitude : magnitude values ≤ 2 ^ (N - 1))
    (hlength : values.length ≤ 2 ^ 50) :
    magnitude values + (3 * values.length + 4) * 2 ^ (N - 53) ≤ 2 ^ N := by
  have hη : (0 : ℚ) < 2 ^ (N - 53) := zpow_pos (N - 53)
  have hhalf : (2 : ℚ) ^ (N - 1) = 2 ^ 52 * 2 ^ (N - 53) := by
    rw [← zpow_natCast, ← zpow_add₀ two_ne_zero]
    congr 1
    omega
  have hwhole : (2 : ℚ) ^ N = 2 * 2 ^ (N - 1) := by
    rw [← zpow_one_add₀ two_ne_zero]
    congr 1
    omega
  have hcount : (3 * values.length + 4 : ℚ) ≤ 2 ^ 52 := by
    have : 3 * values.length + 4 ≤ 2 ^ 52 := by omega
    exact_mod_cast this
  have hrounding := mul_le_mul_of_nonneg_right hcount hη.le
  rw [hwhole]
  linarith

end CompensatedSum

namespace Summary

open CompensatedSum

variable {values : List Float}

/-! ### Dividing by the count -/

theorem isFinite_mean_iff (hvalues : values ≠ []) :
    (mean values).isFinite = true ↔ StaysFinite values := by
  have hlength : 0 < values.length := List.length_pos_iff.mpr hvalues
  rw [staysFinite_iff]
  unfold mean
  constructor
  · intro hmean
    by_contra hsum
    rw [not_isFinite_div (Bool.not_eq_true _ ▸ hsum)] at hmean
    cases hmean
  · intro hsum
    by_cases hlt : values.length < 2 ^ 53
    · obtain ⟨hcount, hexact⟩ := toRat_ofNat_of_lt hlength hlt
      refine (toRat_div hsum hcount ?_).1
      rw [hexact]
      exact_mod_cast hlength
    · rcases ofNat_cases_of_le (Nat.le_of_not_lt hlt) with ⟨hcount, hone⟩ | ⟨sign, hinfinite⟩
      · exact (toRat_div hsum hcount hone).1
      · exact isFinite_div_of_infinity hsum hinfinite

/-- The mean is within seven units of the exact one: six of the sum, and one of the division. -/
theorem abs_mean_sub_lt {N : ℤ} (hN : -1021 ≤ N) (hmax : N ≤ 1023) (hvalues : values ≠ [])
    (hfinite : ∀ v ∈ values, v.isFinite = true) (hmagnitude : magnitude values ≤ 2 ^ (N - 1))
    (hlength : values.length ≤ 2 ^ 50) :
    StaysFinite values ∧
      |toRat (mean values) - total values / values.length| < 7 * 2 ^ (N - 53) := by
  have hη : (0 : ℚ) < 2 ^ (N - 53) := zpow_pos (N - 53)
  have hroom := room_of_magnitude_le hmagnitude hlength
  have htracks := tracks_foldl_add hN hmax hfinite hroom
  refine ⟨staysFinite_iff.mpr htracks.sum, ?_⟩
  have hpos : 0 < values.length := List.length_pos_iff.mpr hvalues
  have hone : (1 : ℚ) ≤ values.length := by exact_mod_cast hpos
  obtain ⟨hcount, hexact⟩ := toRat_ofNat_of_lt hpos (by omega)
  obtain ⟨-, hdivided⟩ := toRat_div htracks.sum hcount (by rw [hexact]; exact hone)
  have htotal := abs_le.mp (abs_total_le values)
  have hcarry := abs_le.mp htracks.carry_le
  have hclose := abs_le.mp htracks.close
  -- the sum is off by what it owes and what was not paid back
  have hsum : |toRat (values.foldl CompensatedSum.add zero).sum - total values| ≤
      3 * (values.length + 1) * 2 ^ (N - 53) := by
    rw [abs_le]
    constructor <;> linarith
  have hbound : |toRat (values.foldl CompensatedSum.add zero).sum / toRat (Float.ofNat values.length)| <
      2 ^ N := by
    rw [hexact, abs_div, Nat.abs_cast]
    refine (div_le_self (abs_nonneg _) hone).trans_lt ?_
    have := abs_le.mp hsum
    rw [abs_lt]
    constructor <;> linarith
  have hquotient := hdivided N hN hbound
  rw [hexact] at hquotient
  have hshare : |toRat (values.foldl CompensatedSum.add zero).sum / values.length -
      total values / values.length| ≤ 6 * 2 ^ (N - 53) := by
    rw [← sub_div, abs_div, Nat.abs_cast, div_le_iff₀ (by linarith)]
    refine hsum.trans ?_
    have hunits := mul_le_mul_of_nonneg_right hone hη.le
    linarith
  calc |toRat (mean values) - total values / values.length|
      ≤ |toRat (mean values) - toRat (values.foldl CompensatedSum.add zero).sum / values.length| +
        |toRat (values.foldl CompensatedSum.add zero).sum / values.length -
          total values / values.length| := abs_sub_le _ _ _
    _ < 2 ^ (N - 53) + 6 * 2 ^ (N - 53) := add_lt_add_of_lt_of_le hquotient hshare
    _ = 7 * 2 ^ (N - 53) := by ring

/-! ### What counts promise -/

/-- There is no average exactly if nothing was counted, and an average is a number. -/
structure Agree (count : Int) (average : Option Float) : Prop where
  none_iff : average = none ↔ count = 0
  isFinite : ∀ a ∈ average, a.isFinite = true

theorem Averages.agree_iff {count : Int} {average : Option Float} {flagged : List Reading}
    (h : Averages count average flagged) :
    Agree count average ↔ StaysFinite (flagged.map (·.value)) := by
  obtain ⟨hcount, haverage⟩ := h
  cases flagged with
  | nil =>
    obtain rfl : count = 0 := hcount
    obtain rfl : average = none := haverage
    refine ⟨fun _ => staysFinite_iff.mpr (by decide), fun _ => ⟨by simp, nofun⟩⟩
  | cons first flagged =>
    have hne : count ≠ 0 := by
      rw [hcount, List.length_cons]
      omega
    have hmean := isFinite_mean_iff (List.cons_ne_nil first.value (flagged.map (·.value)))
    rw [if_neg hne, List.map_cons] at haverage
    rw [List.map_cons, ← hmean]
    generalize mean (first.value :: flagged.map (·.value)) = a at haverage
    rw [Option.filter_some] at haverage
    constructor
    · rintro ⟨hnone, hfinite⟩
      cases hnan : a.isNaN with
      | true =>
        rw [hnan] at haverage
        exact absurd (hnone.mp haverage) hne
      | false =>
        rw [hnan] at haverage
        exact hfinite a (by rw [haverage]; rfl)
    · intro hfinite
      rw [isNaN_of_isFinite hfinite] at haverage
      obtain rfl : average = some a := haverage
      exact ⟨⟨nofun, fun hzero => absurd hzero hne⟩, fun b hb => Option.some.inj hb ▸ hfinite⟩

/-- A count and an average of some values agree exactly if all running sums of the values are
numbers. They do so in particular while the magnitudes of the values add up to no more than a power
of two whose double a double can hold, and then the average is within seven units in the last place
of that double. -/
structure Faithful (count : Int) (average : Option Float) (values : List Float) : Prop where
  agree_iff : Agree count average ↔ StaysFinite values
  close : ∀ N : ℤ, -1021 ≤ N → N ≤ 1023 → magnitude values ≤ 2 ^ (N - 1) →
    values.length ≤ 2 ^ 50 → Agree count average ∧
      ∀ a ∈ average, |toRat a - total values / values.length| < 7 * 2 ^ (N - 53)

theorem isFinite_of_mem_values {flagged : List Reading} {v : Float}
    (hv : v ∈ flagged.map (·.value)) : v.isFinite = true := by
  obtain ⟨r, -, rfl⟩ := List.mem_map.mp hv
  exact r.value_isFinite

theorem Averages.faithful {count : Int} {average : Option Float} {flagged : List Reading}
    (h : Averages count average flagged) :
    Faithful count average (flagged.map (·.value)) := by
  refine ⟨h.agree_iff, fun N hN hmax hmagnitude hlength => ?_⟩
  by_cases hnone : flagged.map (·.value) = []
  · have hagree : Agree count average := by
      rw [h.agree_iff, hnone, staysFinite_iff]
      decide
    refine ⟨hagree, fun a ha => ?_⟩
    have hzero : count = 0 := by
      rw [h.count_eq, List.map_eq_nil_iff.mp hnone]
      rfl
    rw [hagree.none_iff.mpr hzero] at ha
    cases ha
  · obtain ⟨hstays, hclose⟩ := abs_mean_sub_lt hN hmax hnone
      (fun v hv => isFinite_of_mem_values hv) hmagnitude hlength
    refine ⟨h.agree_iff.mpr hstays, fun a ha => ?_⟩
    have hne : count ≠ 0 := by
      rw [h.count_eq]
      simpa using hnone
    have haverage := h.average_eq
    rw [if_neg hne, Option.mem_def.mp ha, eq_comm, Option.filter_eq_some_iff] at haverage
    obtain rfl := Option.some.inj haverage.1
    exact hclose

/-- In every summary of readings that have summaries, the average of a quantity is missing exactly if
nothing was counted, and otherwise is a number, if and only if no running sum of the values counted
leaves the doubles. For values that add up to at most 2^1022 in magnitude, fewer than 2^50 of them,
none does. -/
theorem averages_are_faithful {readings : List Reading} {summaries : List Summary}
    (h : ofReadings readings = .ok summaries) :
    ∀ s ∈ summaries,
      Faithful s.temperatureCount s.averageTemperature
        (((readings.filter (·.device = s.device)).filter (·.isTemperature)).map (·.value)) ∧
      Faithful s.humidityCount s.averageHumidity
        (((readings.filter (·.device = s.device)).filter (·.isHumidity)).map (·.value)) := by
  intro s hs
  have hown := (summarized_of_ofReadings h).tells s hs
  exact ⟨hown.temperature.faithful, hown.humidity.faithful⟩

/-- A temperature that a double holds, but not twice. -/
def hotReading : Reading :=
  { hugeReading with companyId := 1, value := 1.7e308, value_isFinite := by decide +kernel }

/-- A summary of hot readings alone. -/
def hotSummary (count : Int) (average : Option Float) : Summary where
  companyId := 1
  companyName := hotReading.companyName
  deviceId := hotReading.deviceId
  deviceName := hotReading.deviceName
  firstReadingAt := ⟨hotReading.createdAt, none⟩
  lastReadingAt := ⟨hotReading.createdAt, none⟩
  temperatureCount := count
  averageTemperature := average
  humidityCount := 0
  averageHumidity := none

/-- One of them has an average. -/
theorem one_hot_reading_is_faithful :
    ofReadings [hotReading] = .ok [hotSummary 1 (some 1.7e308)] ∧
      Faithful 1 (some 1.7e308)
        ((([hotReading].filter (·.device = hotReading.device)).filter (·.isTemperature)).map
          (·.value)) := by
  have hsummaries : ofReadings [hotReading] = .ok [hotSummary 1 (some 1.7e308)] := by
    decide +kernel
  exact ⟨hsummaries, (averages_are_faithful hsummaries _ (List.mem_singleton_self _)).1⟩

/-- The average of two of them is infinite, and three of them have none: neither agrees with its
count. -/
theorem averages_lost_above_the_doubles :
    (ofReadings [hotReading, hotReading] = .ok [hotSummary 2 (some (1.0 / 0.0))] ∧
      ¬ Agree 2 (some (1.0 / 0.0))) ∧
    (ofReadings [hotReading, hotReading, hotReading] = .ok [hotSummary 3 none] ∧
      ¬ Agree 3 none) := by
  refine ⟨⟨by decide +kernel, fun h => ?_⟩, by decide +kernel, fun h => ?_⟩
  · have hfinite := h.isFinite _ rfl
    revert hfinite
    decide
  · have hzero : (3 : Int) = 0 := h.none_iff.mp rfl
    omega

end Summary

end FeedMerge
