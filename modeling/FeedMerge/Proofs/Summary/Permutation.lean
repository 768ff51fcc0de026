import FeedMerge.Proofs.Summary.Average

/-!
# Readings in another order

What a summary tells is told of the readings of its device, and these are the same readings in every
order. The outermost moments and the counts do not depend on the order at all. An average is taken
over the same values, but in another order, so its last digits may be others; while all sums stay
within the doubles the two averages are a few units apart.

Whether there are summaries is another matter: the first id that fits no words decides, and in
another order it may be another id.
-/

namespace FeedMerge

theorem Timestamp.le_antisymm {a b : Timestamp} (hab : a ≤ b) (hba : b ≤ a) : a = b := by
  obtain ⟨a, ha⟩ := a
  obtain ⟨b, hb⟩ := b
  obtain rfl : a = b := Nat.le_antisymm hab hba
  rfl

namespace Reading

variable {t u : Timestamp} {own others : List Reading}

theorem IsEarliest.eq_of_perm (h : IsEarliest t own) (hothers : IsEarliest u others)
    (hperm : own.Perm others) : u = t := by
  obtain ⟨⟨r, hr, rfl⟩, hfirst⟩ := h
  obtain ⟨⟨q, hq, rfl⟩, hsecond⟩ := hothers
  exact Timestamp.le_antisymm (hsecond r (hperm.mem_iff.mp hr)) (hfirst q (hperm.mem_iff.mpr hq))

theorem IsLatest.eq_of_perm (h : IsLatest t own) (hothers : IsLatest u others)
    (hperm : own.Perm others) : u = t := by
  obtain ⟨⟨r, hr, rfl⟩, hfirst⟩ := h
  obtain ⟨⟨q, hq, rfl⟩, hsecond⟩ := hothers
  exact Timestamp.le_antisymm (hfirst q (hperm.mem_iff.mpr hq)) (hsecond r (hperm.mem_iff.mp hr))

end Reading

namespace CompensatedSum

variable {values others : List Float}

theorem total_eq_of_perm (h : values.Perm others) : total others = total values :=
  (h.map Double.toRat).sum_eq.symm

theorem magnitude_eq_of_perm (h : values.Perm others) : magnitude others = magnitude values :=
  (h.map _).sum_eq.symm

end CompensatedSum

namespace Summary

open Double CompensatedSum

/-! ### Averages in two orders -/

/-- Two counts and averages of the same values in two orders: the counts are the same, and as long
as the sums stay within the doubles both averages are there or neither, a few units apart. -/
structure SameAverages (count other : Int) (average otherAverage : Option Float)
    (flagged others : List Reading) : Prop where
  count_eq : other = count
  perm : (flagged.map (·.value)).Perm (others.map (·.value))
  first : Averages count average flagged
  second : Averages other otherAverage others
  close : ∀ N : ℤ, -1021 ≤ N → N ≤ 1023 → magnitude (flagged.map (·.value)) ≤ 2 ^ (N - 1) →
    flagged.length ≤ 2 ^ 50 → (average = none ↔ otherAverage = none) ∧
      ∀ a ∈ average, ∀ b ∈ otherAverage, |toRat a - toRat b| < 14 * 2 ^ (N - 53)

theorem Averages.same {count other : Int} {average otherAverage : Option Float}
    {flagged others : List Reading} (h : Averages count average flagged)
    (hother : Averages other otherAverage others) (hperm : flagged.Perm others) :
    SameAverages count other average otherAverage flagged others := by
  have hvalues : (flagged.map (·.value)).Perm (others.map (·.value)) := hperm.map _
  have hlength := hvalues.length_eq
  have hcount : other = count := by rw [h.count_eq, hother.count_eq, hperm.length_eq]
  refine ⟨hcount, hvalues, h, hother, fun N hN hmax hmagnitude hfew => ?_⟩
  rw [← List.length_map (·.value)] at hfew
  obtain ⟨hagree, hclose⟩ := h.faithful.close N hN hmax hmagnitude hfew
  obtain ⟨hotherAgree, hotherClose⟩ := hother.faithful.close N hN hmax
    (magnitude_eq_of_perm hvalues ▸ hmagnitude) (hlength ▸ hfew)
  refine ⟨by rw [hagree.none_iff, hotherAgree.none_iff, hcount], fun a ha b hb => ?_⟩
  have hfirst := hclose a ha
  have hsecond := hotherClose b hb
  rw [total_eq_of_perm hvalues, ← hlength] at hsecond
  rw [abs_lt] at hfirst hsecond ⊢
  constructor <;> linarith

/-- Two summaries of one device from its readings in two orders. -/
structure SameStatistics (s t : Summary) (own others : List Reading) : Prop where
  device_eq : t.device = s.device
  first_eq : t.firstReadingAt = s.firstReadingAt
  last_eq : t.lastReadingAt = s.lastReadingAt
  temperature : SameAverages s.temperatureCount t.temperatureCount s.averageTemperature
    t.averageTemperature (own.filter (·.isTemperature)) (others.filter (·.isTemperature))
  humidity : SameAverages s.humidityCount t.humidityCount s.averageHumidity t.averageHumidity
    (own.filter (·.isHumidity)) (others.filter (·.isHumidity))

theorem Summarizes.same {s t : Summary} {own others : List Reading} (hs : s.Summarizes own)
    (ht : t.Summarizes others) (hdevice : t.device = s.device) (hperm : own.Perm others) :
    SameStatistics s t own others := by
  obtain ⟨a, ha, hearliest⟩ := hs.first
  obtain ⟨b, hb, hlatest⟩ := hs.last
  obtain ⟨c, hc, hotherEarliest⟩ := ht.first
  obtain ⟨d, hd, hotherLatest⟩ := ht.last
  refine ⟨hdevice, ?_, ?_, hs.temperature.same ht.temperature (hperm.filter _),
    hs.humidity.same ht.humidity (hperm.filter _)⟩
  · rw [ha, hc, hearliest.eq_of_perm hotherEarliest hperm]
  · rw [hb, hd, hlatest.eq_of_perm hotherLatest hperm]

/-! ### Ids in two orders -/

/-- Both columns of ids are kept. -/
def IdsKept (readings : List Reading) : Prop :=
  IdsAreKept (readings.map (·.companyId)) ∧ IdsAreKept (readings.map (·.deviceId))

instance (readings : List Reading) : Decidable (IdsKept readings) :=
  inferInstanceAs (Decidable (_ ∧ _))

theorem FitWords.of_perm {ids others : List Int} (h : FitWords ids) (hperm : ids.Perm others) :
    FitWords others :=
  h.imp (fun h id hid => h id (hperm.mem_iff.mpr hid))
    (fun h id hid => h id (hperm.mem_iff.mpr hid))

theorem idsKept_of_fitWords {readings others : List Reading} (hperm : readings.Perm others)
    (hcompanies : FitWords (readings.map (·.companyId)))
    (hdevices : FitWords (readings.map (·.deviceId))) : IdsKept readings ∧ IdsKept others :=
  ⟨⟨hcompanies.idsAreKept, hdevices.idsAreKept⟩,
    (hcompanies.of_perm (hperm.map _)).idsAreKept, (hdevices.of_perm (hperm.map _)).idsAreKept⟩

theorem Summarized.map_device_perm {readings others : List Reading} {first second : List Summary}
    (hfirst : Summarized readings first) (hsecond : Summarized others second)
    (hperm : readings.Perm others) : (first.map device).Perm (second.map device) := by
  rw [List.perm_ext_iff_of_nodup hfirst.distinct hsecond.distinct]
  intro d
  rw [hfirst.devices, hsecond.devices, List.mem_eraseDups, List.mem_eraseDups]
  exact (hperm.map _).mem_iff

/-- The same readings in two orders. If the ids are kept in both, there are summaries of the same
devices, and those of a device agree in both moments, in both counts, and in the values that the
averages are taken over. An order in which they are not kept has no summaries. In either order they
are kept if each column fits words. -/
theorem ofReadings_perm {readings others : List Reading} (hperm : readings.Perm others) :
    (IdsKept readings → IdsKept others →
      ∃ first second, ofReadings readings = .ok first ∧ ofReadings others = .ok second ∧
        (first.map device).Nodup ∧ (first.map device).Perm (second.map device) ∧
        ∀ s ∈ first, ∃ t ∈ second, SameStatistics s t (readings.filter (·.device = s.device))
          (others.filter (·.device = s.device))) ∧
    (¬ IdsKept readings → ofReadings readings = .error .idTooLarge) ∧
    (¬ IdsKept others → ofReadings others = .error .idTooLarge) ∧
    (FitWords (readings.map (·.companyId)) → FitWords (readings.map (·.deviceId)) →
      IdsKept readings ∧ IdsKept others) := by
  refine ⟨fun h hother => ?_, ofReadings_eq_error_iff.mpr, ofReadings_eq_error_iff.mpr,
    idsKept_of_fitWords hperm⟩
  obtain ⟨first, hfirst, hfirstTold⟩ := exists_ofReadings_eq_ok h
  obtain ⟨second, hsecond, hsecondTold⟩ := exists_ofReadings_eq_ok hother
  have hsame := hfirstTold.map_device_perm hsecondTold hperm
  refine ⟨first, second, hfirst, hsecond, hfirstTold.distinct, hsame, fun s hs => ?_⟩
  obtain ⟨t, ht, hdevice⟩ := List.mem_map.mp (hsame.mem_iff.mp (List.mem_map_of_mem hs))
  have htold := hsecondTold.tells t ht
  rw [hdevice] at htold
  exact ⟨t, ht, (hfirstTold.tells s hs).same htold hdevice (hperm.filter _)⟩

/-- A reading of a company whose id fits no words, but has a finite double. -/
def wideReading : Reading := { hugeReading with companyId := 2 * Coercion.wordEnd }

/-- Where it stands makes no difference to another device. -/
theorem wide_reading_moves :
    ∃ first second, ofReadings [wideReading, hotReading] = .ok first ∧
      ofReadings [hotReading, wideReading] = .ok second ∧
      (first.map device).Perm (second.map device) ∧
      ∀ s ∈ first, ∃ t ∈ second, SameStatistics s t
        ([wideReading, hotReading].filter (·.device = s.device))
        ([hotReading, wideReading].filter (·.device = s.device)) := by
  have hkept : IdsKept [wideReading, hotReading] := by decide +kernel
  have hotherKept : IdsKept [hotReading, wideReading] := by decide +kernel
  obtain ⟨first, second, hfirst, hsecond, -, hdevices, hsame⟩ :=
    (ofReadings_perm (List.Perm.swap hotReading wideReading [])).1 hkept hotherKept
  exact ⟨first, second, hfirst, hsecond, hdevices, hsame⟩

/-- A hot reading of another sign. -/
def coldReading : Reading :=
  { hotReading with value := -1.7e308, value_isFinite := by decide +kernel }

/-- The first id that fits no words decides whether there are summaries, and an average that is
there in one order is lost in another. -/
theorem ofReadings_depends_on_order :
    ([wideReading, hugeReading].Perm [hugeReading, wideReading] ∧
      (ofReadings [wideReading, hugeReading]).isOk = true ∧
      ofReadings [hugeReading, wideReading] = .error .idTooLarge) ∧
    ([hotReading, coldReading, hotReading, coldReading].Perm
        [hotReading, hotReading, coldReading, coldReading] ∧
      ofReadings [hotReading, coldReading, hotReading, coldReading] =
        .ok [hotSummary 4 (some 0.0)] ∧
      ofReadings [hotReading, hotReading, coldReading, coldReading] =
        .ok [hotSummary 4 none]) := by
  refine ⟨⟨.swap .., ?_, ?_⟩, .cons _ (.swap ..), ?_, ?_⟩ <;> decide +kernel

end Summary

end FeedMerge
