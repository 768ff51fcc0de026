import FeedMerge.Proofs.Summary.Permutation

/-!
# Readings behind other readings

Of two lists of readings, one behind the other, there are the summaries of the first, in which those
of devices that the second has as well take up what the second tells, and then the summaries of the
devices that only the second has (`Joined`). All of it comes from what a summary tells of the
readings of its device (`Summarizes`), which here are those in the first list and then those in the
second; and nothing else is told, so what is told of the same readings is the same summary
(`Summarizes.eq`).

Ids that are kept in both lists are kept in both together: the first id that fits no words with
those before it does so in the list that it is from, or else fits words by itself, and then has a
finite double.
-/

namespace FeedMerge

open Double

theorem Coercion.isFinite_floatOfInt {id : Int} (hlow : -wordEnd ≤ id) (hhigh : id < 2 * wordEnd) :
    (floatOfInt id).isFinite = true := by
  have hword : wordEnd = 2 ^ 63 := by decide
  have hlt : id.natAbs < 2 ^ 65 := by omega
  have hdigits : Decimal.digitCount id.natAbs ≤ 20 := by
    unfold Decimal.digitCount
    split
    · omega
    · exact (Nat.length_toDigits_le_iff (by decide) (by decide)).mpr (by omega)
  have hmagnitude : (Decimal.magnitude ⟨decide (id < 0), id.natAbs, 0⟩).isFinite = true := by
    unfold Decimal.magnitude
    dsimp only
    split
    · decide
    · rw [if_neg (by omega)]
      exact isFinite_ofNat (by decide) hlt
  unfold floatOfInt Decimal.toFloat
  split
  · exact isFinite_neg hmagnitude
  · exact hmagnitude

namespace Summary

/-! ### Ids in two lists -/

theorem FitWords.append_right {first second : List Int} (h : FitWords (first ++ second)) :
    FitWords second :=
  h.imp (fun h id hid => h id (List.mem_append_right _ hid))
    (fun h id hid => h id (List.mem_append_right _ hid))

theorem IdsAreKept.append {first second : List Int} (hfirst : IdsAreKept first)
    (hsecond : IdsAreKept second) : IdsAreKept (first ++ second) := by
  intro fit id rest hids hfit hunfit
  -- in the second list there are fewer ids before one of its own
  have hown (middle : List Int) (hrest : second = middle ++ id :: rest)
      (hmiddle : FitWords middle) : (Coercion.floatOfInt id).isFinite = true := by
    by_cases hid : FitWords (middle ++ [id])
    · have hrange := ((fitWords_iff _).mp hid).1 id (List.mem_append_right _ List.mem_cons_self)
      exact Coercion.isFinite_floatOfInt hrange.1 hrange.2
    · exact hsecond middle id rest hrest hmiddle hid
  rcases List.append_eq_append_iff.mp hids with ⟨middle, rfl, hrest⟩ | ⟨middle, rfl, hrest⟩
  · exact hown middle hrest hfit.append_right
  · cases middle with
    | nil => exact hown [] hrest.symm (.inl nofun)
    | cons head middle =>
      obtain ⟨rfl, -⟩ := List.cons.inj hrest
      exact hfirst fit id middle rfl hfit hunfit

theorem IdsAreKept.of_append {first second : List Int} (h : IdsAreKept (first ++ second)) :
    IdsAreKept first := by
  rintro fit id rest rfl hfit hunfit
  exact h fit id (rest ++ second) (List.append_assoc ..) hfit hunfit

theorem IdsKept.append {readings others : List Reading} (h : IdsKept readings)
    (hothers : IdsKept others) : IdsKept (readings ++ others) := by
  unfold IdsKept
  rw [List.map_append, List.map_append]
  exact ⟨h.1.append hothers.1, h.2.append hothers.2⟩

theorem IdsKept.of_append {readings others : List Reading} (h : IdsKept (readings ++ others)) :
    IdsKept readings := by
  unfold IdsKept at h
  rw [List.map_append, List.map_append] at h
  exact ⟨h.1.of_append, h.2.of_append⟩

theorem idsKept_of_ofReadings {readings : List Reading} {summaries : List Summary}
    (h : ofReadings readings = .ok summaries) : IdsKept readings := by
  by_contra hnot
  rw [ofReadings_eq_error_iff.mpr hnot] at h
  cases h

/-! ### What two summaries of a device make up -/

/-- What is told of the same readings is the same. -/
theorem Summarizes.eq {s t : Summary} {own : List Reading} (hs : s.Summarizes own)
    (ht : t.Summarizes own) (hdevice : s.device = t.device) : s = t := by
  obtain ⟨r, hr, hcompany, hname⟩ := hs.names
  obtain ⟨q, hq, hotherCompany, hotherName⟩ := ht.names
  obtain rfl := Option.mem_unique hr hq
  obtain ⟨a, ha, hearliest⟩ := hs.first
  obtain ⟨b, hb, hotherEarliest⟩ := ht.first
  obtain rfl := hearliest.eq_of_perm hotherEarliest (.refl own)
  obtain ⟨c, hc, hlatest⟩ := hs.last
  obtain ⟨d, hd, hotherLatest⟩ := ht.last
  obtain rfl := hlatest.eq_of_perm hotherLatest (.refl own)
  have htemperature := hs.temperature.count_eq.trans ht.temperature.count_eq.symm
  have hhumidity := hs.humidity.count_eq.trans ht.humidity.count_eq.symm
  have haverage := hs.temperature.average_eq
  have haverageHumidity := hs.humidity.average_eq
  rw [htemperature, ← ht.temperature.average_eq] at haverage
  rw [hhumidity, ← ht.humidity.average_eq] at haverageHumidity
  obtain ⟨hcompanyId, hdeviceId⟩ := Device.mk.inj hdevice
  cases s
  cases t
  simp_all

/-- A summary that takes up what two summaries of its device tell, one of them first. -/
structure Combines (s t u : Summary) : Prop where
  device_eq : u.device = s.device
  names : u.companyName = s.companyName ∧ u.deviceName = s.deviceName
  first : ∃ a b, s.firstReadingAt = ⟨a, none⟩ ∧ t.firstReadingAt = ⟨b, none⟩ ∧
    u.firstReadingAt = ⟨a.earlier b, none⟩
  last : ∃ a b, s.lastReadingAt = ⟨a, none⟩ ∧ t.lastReadingAt = ⟨b, none⟩ ∧
    u.lastReadingAt = ⟨a.later b, none⟩
  temperatureCount : u.temperatureCount = s.temperatureCount + t.temperatureCount
  humidityCount : u.humidityCount = s.humidityCount + t.humidityCount

theorem Averages.count_append {count other both : Int}
    {average otherAverage bothAverage : Option Float} {flag : Reading → Bool}
    {own others : List Reading} (h : Averages count average (own.filter flag))
    (hother : Averages other otherAverage (others.filter flag))
    (hboth : Averages both bothAverage ((own ++ others).filter flag)) : both = count + other := by
  rw [h.count_eq, hother.count_eq, hboth.count_eq, List.filter_append, List.length_append,
    Int.natCast_add]

theorem Summarizes.combine {s t u : Summary} {own others : List Reading} (hs : s.Summarizes own)
    (ht : t.Summarizes others) (hu : u.Summarizes (own ++ others)) (hdevice : u.device = s.device) :
    Combines s t u := by
  obtain ⟨a, ha, hearliest⟩ := hs.first
  obtain ⟨b, hb, hotherEarliest⟩ := ht.first
  obtain ⟨c, hc, hbothEarliest⟩ := hu.first
  obtain ⟨d, hd, hlatest⟩ := hs.last
  obtain ⟨e, he, hotherLatest⟩ := ht.last
  obtain ⟨f, hf, hbothLatest⟩ := hu.last
  have hfirst := hbothEarliest.eq_of_perm (hearliest.append hotherEarliest) (.refl _)
  have hlast := hbothLatest.eq_of_perm (hlatest.append hotherLatest) (.refl _)
  refine ⟨hdevice, ?_, ⟨a, b, ha, hb, hfirst ▸ hc⟩, ⟨d, e, hd, he, hlast ▸ hf⟩,
    hs.temperature.count_append ht.temperature hu.temperature,
    hs.humidity.count_append ht.humidity hu.humidity⟩
  obtain ⟨r, hr, hcompany, hname⟩ := hs.names
  obtain ⟨q, hq, hbothCompany, hbothName⟩ := hu.names
  have hhead : (own ++ others).head? = some r := by
    rw [List.head?_append, Option.mem_def.mp hr]
    rfl
  obtain rfl := Option.mem_unique hq hhead
  exact ⟨hbothCompany.trans hcompany.symm, hbothName.trans hname.symm⟩

/-! ### The summaries of both lists -/

/-- The summaries of a list of readings behind another, from those of either: the devices of the
first and then those that only the second has, both in their order; a device that both have is told
of by what both tell, and one that only one has by the summary there. -/
structure Joined (first second both : List Summary) : Prop where
  distinct : (both.map device).Nodup
  devices : both.map device =
    first.map device ++ (second.map device).filter (· ∉ first.map device)
  combined : ∀ s ∈ first, ∀ t ∈ second, t.device = s.device → ∃ u ∈ both, Combines s t u
  only_first : ∀ s ∈ first, s.device ∉ second.map device → s ∈ both
  only_second : ∀ t ∈ second, t.device ∉ first.map device → t ∈ both

namespace Summarized

variable {readings others : List Reading} {first second both : List Summary}

theorem mem_devices (h : Summarized readings first) {d : Device} :
    d ∈ first.map device ↔ d ∈ readings.map (·.device) := by
  rw [h.devices, List.mem_eraseDups]

theorem filter_eq_nil (h : Summarized readings first) {d : Device} (hd : d ∉ first.map device) :
    readings.filter (·.device = d) = [] := by
  refine List.filter_eq_nil_iff.mpr fun r hr heq => hd (h.mem_devices.mpr ?_)
  exact List.mem_map.mpr ⟨r, hr, of_decide_eq_true heq⟩

theorem exists_of_mem_devices (h : Summarized readings first) {d : Device}
    (hd : d ∈ readings.map (·.device)) :
    ∃ s ∈ first, s.device = d ∧ s.Summarizes (readings.filter (·.device = d)) := by
  obtain ⟨s, hs, rfl⟩ := List.mem_map.mp (h.mem_devices.mpr hd)
  exact ⟨s, hs, rfl, h.tells s hs⟩

theorem joined (hfirst : Summarized readings first) (hsecond : Summarized others second)
    (hboth : Summarized (readings ++ others) both) : Joined first second both := by
  have hleft {s : Summary} (hs : s ∈ first) : s.device ∈ (readings ++ others).map (·.device) := by
    rw [List.map_append]
    exact List.mem_append_left _ (hfirst.mem_devices.mp (List.mem_map_of_mem hs))
  have hright {t : Summary} (ht : t ∈ second) :
      t.device ∈ (readings ++ others).map (·.device) := by
    rw [List.map_append]
    exact List.mem_append_right _ (hsecond.mem_devices.mp (List.mem_map_of_mem ht))
  refine ⟨hboth.distinct, ?_, fun s hs t ht hdevice => ?_, fun s hs honly => ?_,
    fun t ht honly => ?_⟩
  · have hnew : (others.map (·.device)).removeAll (readings.map (·.device)) =
        (others.map (·.device)).filter (· ∉ first.map device) := by
      refine List.filter_congr fun d _ => ?_
      simp only [List.elem_eq_mem, hfirst.mem_devices, decide_not]
    rw [hboth.devices, List.map_append, List.eraseDups_append, hnew, List.eraseDups_filter,
      ← hfirst.devices, ← hsecond.devices]
  · obtain ⟨u, hu, hudevice, htells⟩ := hboth.exists_of_mem_devices (hleft hs)
    rw [List.filter_append] at htells
    exact ⟨u, hu, (hfirst.tells s hs).combine (hdevice ▸ hsecond.tells t ht) htells hudevice⟩
  · obtain ⟨u, hu, hudevice, htells⟩ := hboth.exists_of_mem_devices (hleft hs)
    rw [List.filter_append, hsecond.filter_eq_nil honly, List.append_nil] at htells
    rwa [(hfirst.tells s hs).eq htells hudevice.symm]
  · obtain ⟨u, hu, hudevice, htells⟩ := hboth.exists_of_mem_devices (hright ht)
    rw [List.filter_append, hfirst.filter_eq_nil honly, List.nil_append] at htells
    rwa [(hsecond.tells t ht).eq htells hudevice.symm]

/-! ### Counts over all devices -/

/-- Each reading that counts is counted for one device. -/
theorem sum_counts (h : Summarized readings first) {flag : Reading → Bool} {count : Summary → Int}
    (hcount : ∀ s ∈ first, count s = ((readings.filter (·.device = s.device)).filter flag).length) :
    (first.map count).sum = (readings.filter flag).length := by
  have hown (s : Summary) : ((readings.filter (·.device = s.device)).filter flag).length =
      ((readings.filter flag).map (·.device)).count s.device := by
    rw [List.filter_comm, ← List.countP_eq_length_filter, List.count, List.countP_map]
    exact List.countP_congr fun r _ => by simp
  have hmem : ∀ d ∈ ((readings.filter flag).map (·.device) : Multiset Device),
      d ∈ (first.map device).toFinset := by
    intro d hd
    obtain ⟨r, hr, rfl⟩ := List.mem_map.mp (Multiset.mem_coe.mp hd)
    rw [List.mem_toFinset, h.mem_devices]
    exact List.mem_map_of_mem (List.mem_of_mem_filter hr)
  have htotal := Multiset.sum_count_eq_card hmem
  simp only [Multiset.coe_count, Multiset.coe_card, List.length_map] at htotal
  rw [List.sum_toFinset _ h.distinct, List.map_map] at htotal
  have hcounts : first.map count = (first.map fun s =>
      ((readings.filter flag).map (·.device)).count s.device).map Nat.cast := by
    rw [List.map_map]
    exact List.map_congr_left fun s hs => by rw [hcount s hs, hown]; rfl
  rw [hcounts, ← htotal, Nat.cast_list_sum]
  rfl

end Summarized

/-- What summaries there are of readings behind others. If there are summaries of either list, there
are summaries of both together, joined of these; without summaries of the first there are none of
both. A list has summaries if and only if its ids are kept, and then its summaries count each
temperature and each humidity among the readings once. -/
theorem ofReadings_append (readings others : List Reading) :
    (∀ first second, ofReadings readings = .ok first → ofReadings others = .ok second →
      ∃ both, ofReadings (readings ++ others) = .ok both ∧ Joined first second both) ∧
    (ofReadings readings = .error .idTooLarge →
      ofReadings (readings ++ others) = .error .idTooLarge) ∧
    (ofReadings readings = .error .idTooLarge ↔ ¬ IdsKept readings) ∧
    ∀ summaries, ofReadings readings = .ok summaries →
      (summaries.map (·.temperatureCount)).sum = (readings.filter (·.isTemperature)).length ∧
      (summaries.map (·.humidityCount)).sum = (readings.filter (·.isHumidity)).length := by
  refine ⟨fun first second hfirst hsecond => ?_, fun herror => ?_, ofReadings_eq_error_iff,
    fun summaries hsummaries => ?_⟩
  · obtain ⟨both, hboth, htold⟩ := exists_ofReadings_eq_ok
      ((idsKept_of_ofReadings hfirst).append (idsKept_of_ofReadings hsecond))
    exact ⟨both, hboth, (summarized_of_ofReadings hfirst).joined
      (summarized_of_ofReadings hsecond) htold⟩
  · exact ofReadings_eq_error_iff.mpr (mt IdsKept.of_append (ofReadings_eq_error_iff.mp herror))
  · have h := summarized_of_ofReadings hsummaries
    exact ⟨h.sum_counts fun s hs => (h.tells s hs).temperature.count_eq,
      h.sum_counts fun s hs => (h.tells s hs).humidity.count_eq⟩

/-- The readings of one device on both sides of those of another, in two lists that have both. -/
theorem hot_and_cold_lists_join :
    ∃ first second both, ofReadings [wideReading, hotReading] = .ok first ∧
      ofReadings [coldReading, wideReading, coldReading] = .ok second ∧
      ofReadings ([wideReading, hotReading] ++ [coldReading, wideReading, coldReading]) = .ok both ∧
      Joined first second both := by
  have hkept : IdsKept [wideReading, hotReading] := by decide +kernel
  have hotherKept : IdsKept [coldReading, wideReading, coldReading] := by decide +kernel
  obtain ⟨first, hfirst, -⟩ := exists_ofReadings_eq_ok hkept
  obtain ⟨second, hsecond, -⟩ := exists_ofReadings_eq_ok hotherKept
  obtain ⟨both, hboth, hjoined⟩ := (ofReadings_append _ _).1 first second hfirst hsecond
  exact ⟨first, second, both, hfirst, hsecond, hboth, hjoined⟩

/-- The second list has no summaries, although both together have one of its only device, which the
first does not have. -/
theorem wide_and_huge_lists_do_not_join :
    (∃ first, ofReadings [wideReading] = .ok first ∧
      hugeReading.device ∉ first.map device) ∧
    (∃ both, ofReadings ([wideReading] ++ [hugeReading]) = .ok both ∧
      hugeReading.device ∈ both.map device) ∧
    ¬ ∃ first second both, ofReadings [wideReading] = .ok first ∧
      ofReadings [hugeReading] = .ok second ∧
      ofReadings ([wideReading] ++ [hugeReading]) = .ok both ∧ Joined first second both := by
  have hkept : IdsKept [wideReading] := by decide +kernel
  have hbothKept : IdsKept ([wideReading] ++ [hugeReading]) := by decide +kernel
  obtain ⟨first, hfirst, hfirstTold⟩ := exists_ofReadings_eq_ok hkept
  obtain ⟨both, hboth, htold⟩ := exists_ofReadings_eq_ok hbothKept
  refine ⟨⟨first, hfirst, ?_⟩, ⟨both, hboth, ?_⟩, ?_⟩
  · rw [hfirstTold.mem_devices]
    decide +kernel
  · rw [htold.mem_devices]
    decide +kernel
  · rintro ⟨-, second, -, -, hsecond, -⟩
    have herror : ofReadings [hugeReading] = .error .idTooLarge := by decide +kernel
    rw [herror] at hsecond
    cases hsecond

end Summary

end FeedMerge
