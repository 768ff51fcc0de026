import FeedMerge.Proofs.FirstOccurrence
import FeedMerge.Summary

/-!
# Grouping readings by device

The readings are gone over once, and each is added to the tally of its device. What comes out can be
told device by device: the devices stand in the order in which they first occur, and the tally of a
device is what its own readings add up to, whatever stands between them (`Tallied`). One more
reading keeps this (`Tallied.insert`), so it holds of all readings.

The size of the ids is a matter of its own. An id is in the way of all summaries if it is the first
of its column to fit no words together with those before it and has no finite double next to it
(`areKept_iff`).
-/

namespace FeedMerge

/-! ### Earlier and later -/

namespace Timestamp

variable {a b c : Timestamp}

theorem le_refl (a : Timestamp) : a ≤ a := Nat.le_refl a.micros

theorem le_trans (hab : a ≤ b) (hbc : b ≤ c) : a ≤ c :=
  Nat.le_trans (show a.micros ≤ b.micros from hab) hbc

theorem le_of_not_le (h : ¬ a ≤ b) : b ≤ a :=
  Nat.le_of_not_le (show ¬ a.micros ≤ b.micros from h)

theorem earlier_spec (a b : Timestamp) :
    (a.earlier b = a ∨ a.earlier b = b) ∧ a.earlier b ≤ a ∧ a.earlier b ≤ b := by
  unfold earlier
  split
  · rename_i hab
    exact ⟨.inl rfl, le_refl a, hab⟩
  · rename_i hab
    exact ⟨.inr rfl, le_of_not_le hab, le_refl b⟩

theorem later_spec (a b : Timestamp) :
    (a.later b = a ∨ a.later b = b) ∧ a ≤ a.later b ∧ b ≤ a.later b := by
  unfold later
  split
  · rename_i hab
    exact ⟨.inr rfl, hab, le_refl b⟩
  · rename_i hab
    exact ⟨.inl rfl, le_refl a, le_of_not_le hab⟩

end Timestamp

/-! ### What the readings of a device tell -/

namespace Reading

/-- A time at which one of some readings was taken, and none before. -/
def IsEarliest (t : Timestamp) (own : List Reading) : Prop :=
  (∃ r ∈ own, r.createdAt = t) ∧ ∀ r ∈ own, t ≤ r.createdAt

/-- A time at which one of some readings was taken, and none after. -/
def IsLatest (t : Timestamp) (own : List Reading) : Prop :=
  (∃ r ∈ own, r.createdAt = t) ∧ ∀ r ∈ own, r.createdAt ≤ t

variable {t u : Timestamp} {own others : List Reading}

theorem isEarliest_singleton (r : Reading) : IsEarliest r.createdAt [r] :=
  ⟨⟨r, List.mem_singleton_self r, rfl⟩,
    fun _ hs => List.mem_singleton.mp hs ▸ Timestamp.le_refl _⟩

theorem isLatest_singleton (r : Reading) : IsLatest r.createdAt [r] :=
  ⟨⟨r, List.mem_singleton_self r, rfl⟩,
    fun _ hs => List.mem_singleton.mp hs ▸ Timestamp.le_refl _⟩

/-- The outer one of the outermost times of two lists is outermost in both together, whichever way
outwards is. -/
theorem outermost_append (outer : Timestamp → Timestamp → Prop)
    (pick : Timestamp → Timestamp → Timestamp)
    (htrans : ∀ {a b c}, outer a b → outer b c → outer a c)
    (hpick : ∀ a b, (pick a b = a ∨ pick a b = b) ∧ outer (pick a b) a ∧ outer (pick a b) b)
    (h : (∃ r ∈ own, r.createdAt = t) ∧ ∀ r ∈ own, outer t r.createdAt)
    (hothers : (∃ r ∈ others, r.createdAt = u) ∧ ∀ r ∈ others, outer u r.createdAt) :
    (∃ s ∈ own ++ others, s.createdAt = pick t u) ∧
      ∀ s ∈ own ++ others, outer (pick t u) s.createdAt := by
  obtain ⟨⟨s, hs, hst⟩, houter⟩ := h
  obtain ⟨⟨r, hr, hru⟩, hotherOuter⟩ := hothers
  obtain ⟨hpicked, hfirst, hsecond⟩ := hpick t u
  constructor
  · rcases hpicked with heq | heq
    · exact ⟨s, List.mem_append_left _ hs, hst.trans heq.symm⟩
    · exact ⟨r, List.mem_append_right _ hr, hru.trans heq.symm⟩
  · intro q hq
    rcases List.mem_append.mp hq with hq | hq
    · exact htrans hfirst (houter q hq)
    · exact htrans hsecond (hotherOuter q hq)

theorem IsEarliest.append (h : IsEarliest t own) (hothers : IsEarliest u others) :
    IsEarliest (t.earlier u) (own ++ others) :=
  outermost_append (· ≤ ·) Timestamp.earlier Timestamp.le_trans Timestamp.earlier_spec h hothers

theorem IsLatest.append (h : IsLatest t own) (hothers : IsLatest u others) :
    IsLatest (t.later u) (own ++ others) :=
  outermost_append (fun a b => b ≤ a) Timestamp.later (fun hab hbc => Timestamp.le_trans hbc hab)
    Timestamp.later_spec h hothers

end Reading

namespace Channel

theorem count_foldl_add (values : List Float) (c : Channel) :
    (values.foldl add c).count = c.count + values.length := by
  induction values generalizing c with
  | nil => rfl
  | cons value values ih =>
    rw [List.foldl_cons, ih, List.length_cons]
    simp only [add]
    omega

theorem total_foldl_add (values : List Float) (c : Channel) :
    (values.foldl add c).total = values.foldl CompensatedSum.add c.total := by
  induction values generalizing c with
  | nil => rfl
  | cons value values ih => rw [List.foldl_cons, List.foldl_cons, ih, add]

/-- The values of the flagged ones among some readings, in order. -/
def ofFlagged (flag : Reading → Bool) (own : List Reading) : Channel :=
  .ofValues ((own.filter flag).map (·.value))

theorem ofFlagged_append (flag : Reading → Bool) (own : List Reading) (r : Reading) :
    ofFlagged flag (own ++ [r]) = (ofFlagged flag own).addIf (flag r) r.value := by
  unfold ofFlagged ofValues addIf
  rw [List.filter_append]
  cases hflag : flag r <;> simp [hflag]

end Channel

namespace Tally

variable {t : Tally} {own readings : List Reading} {tallies : List Tally}

/-- A tally is what the readings of a device, from the first on, add up to. -/
structure Sums (t : Tally) (own : List Reading) : Prop where
  names : ∃ r ∈ own.head?, t.companyName = r.companyName ∧ t.deviceName = r.deviceName
  first : Reading.IsEarliest t.first own
  last : Reading.IsLatest t.last own
  temperature : t.temperature = .ofFlagged (·.isTemperature) own
  humidity : t.humidity = .ofFlagged (·.isHumidity) own

theorem sums_start (r : Reading) : (start r).Sums [r] where
  names := ⟨r, rfl, rfl, rfl⟩
  first := Reading.isEarliest_singleton r
  last := Reading.isLatest_singleton r
  temperature := (Channel.ofFlagged_append _ [] r).symm
  humidity := (Channel.ofFlagged_append _ [] r).symm

theorem Sums.add (h : t.Sums own) (r : Reading) : (t.add r).Sums (own ++ [r]) where
  names := by
    obtain ⟨s, hs, hnames⟩ := h.names
    have hhead : (own ++ [r]).head? = some s := by
      rw [List.head?_append, Option.mem_def.mp hs]
      rfl
    exact ⟨s, hhead, hnames⟩
  first := h.first.append (Reading.isEarliest_singleton r)
  last := h.last.append (Reading.isLatest_singleton r)
  temperature := by
    rw [Channel.ofFlagged_append, ← h.temperature]
    rfl
  humidity := by
    rw [Channel.ofFlagged_append, ← h.humidity]
    rfl

/-! ### Adding one reading after another -/

theorem device_start (r : Reading) : (start r).device = r.device := rfl

theorem device_add (t : Tally) (r : Reading) : (t.add r).device = t.device := rfl

theorem map_device_insert (tallies : List Tally) (r : Reading) :
    (insert tallies r).map (·.device) =
      if r.device ∈ tallies.map (·.device) then tallies.map (·.device)
      else tallies.map (·.device) ++ [r.device] := by
  induction tallies with
  | nil => rfl
  | cons t tallies ih =>
    unfold insert
    split
    · rename_i hdevice
      simp [device_add, hdevice]
    · rename_i hdevice
      rw [List.map_cons, List.map_cons, ih]
      by_cases hmem : r.device ∈ tallies.map (·.device)
      · rw [if_pos hmem, if_pos (List.mem_cons_of_mem _ hmem)]
      · have hnot : r.device ∉ t.device :: tallies.map (·.device) := by
          rw [List.mem_cons]
          exact fun h => h.elim (fun h => hdevice h.symm) hmem
        rw [if_neg hmem, if_neg hnot, List.cons_append]

/-- After one more reading a tally is of another device and as it was, or it is the one of this
device with the reading added, or it begins with the reading. -/
theorem of_mem_insert {r : Reading} (hdistinct : (tallies.map (·.device)).Nodup)
    (h : t ∈ insert tallies r) :
    (t ∈ tallies ∧ t.device ≠ r.device) ∨ (∃ u ∈ tallies, u.device = r.device ∧ t = u.add r) ∨
      (r.device ∉ tallies.map (·.device) ∧ t = start r) := by
  induction tallies with
  | nil =>
    obtain rfl := List.mem_singleton.mp h
    exact .inr (.inr ⟨List.not_mem_nil, rfl⟩)
  | cons u tallies ih =>
    obtain ⟨hfresh, hrest⟩ := List.nodup_cons.mp hdistinct
    unfold insert at h
    split at h
    · rename_i hdevice
      rcases List.mem_cons.mp h with rfl | hmem
      · exact .inr (.inl ⟨u, List.mem_cons_self, hdevice, rfl⟩)
      · -- a further tally of the device would repeat the device of `u`
        refine .inl ⟨List.mem_cons_of_mem _ hmem, fun heq => hfresh ?_⟩
        exact List.mem_map.mpr ⟨t, hmem, heq.trans hdevice.symm⟩
    · rename_i hdevice
      rcases List.mem_cons.mp h with rfl | hmem
      · exact .inl ⟨List.mem_cons_self, hdevice⟩
      · rcases ih hrest hmem with ⟨hmem, hne⟩ | ⟨v, hv, hadd⟩ | ⟨hnot, hstart⟩
        · exact .inl ⟨List.mem_cons_of_mem _ hmem, hne⟩
        · exact .inr (.inl ⟨v, List.mem_cons_of_mem _ hv, hadd⟩)
        · refine .inr (.inr ⟨fun hmem => ?_, hstart⟩)
          rcases List.mem_cons.mp hmem with heq | hmem
          · exact hdevice heq.symm
          · exact hnot hmem

/-- Some tallies are those of some readings: one for each device in the order in which the devices
first occur, and each of them what the readings of its device add up to. -/
structure Tallied (readings : List Reading) (tallies : List Tally) : Prop where
  distinct : (tallies.map (·.device)).Nodup
  devices : tallies.map (·.device) = (readings.map (·.device)).eraseDups
  sums : ∀ t ∈ tallies, t.Sums (readings.filter (·.device = t.device))

namespace Tallied

theorem mem_devices (h : Tallied readings tallies) {d : Device} :
    d ∈ tallies.map (·.device) ↔ d ∈ readings.map (·.device) := by
  rw [h.devices, List.mem_eraseDups]

theorem distinct_insert (h : Tallied readings tallies) (r : Reading) :
    ((insert tallies r).map (·.device)).Nodup := by
  rw [map_device_insert]
  split
  · exact h.distinct
  · rename_i hnew
    rw [List.nodup_append]
    refine ⟨h.distinct, by simp, fun d hd e he => ?_⟩
    obtain rfl := List.mem_singleton.mp he
    exact fun heq => hnew (heq ▸ hd)

theorem devices_insert (h : Tallied readings tallies) (r : Reading) :
    (insert tallies r).map (·.device) = ((readings ++ [r]).map (·.device)).eraseDups := by
  rw [map_device_insert, List.map_append, List.map_singleton, List.eraseDups_concat, ← h.devices]
  simp only [h.mem_devices]

theorem sums_insert (h : Tallied readings tallies) {r : Reading} (hmem : t ∈ insert tallies r) :
    t.Sums ((readings ++ [r]).filter (·.device = t.device)) := by
  rw [List.filter_append]
  rcases of_mem_insert h.distinct hmem with ⟨hmem, hne⟩ | ⟨u, hu, hdevice, rfl⟩ | ⟨hnew, rfl⟩
  -- a tally of another device, the one that was added to, or a new one
  · have hother : [r].filter (·.device = t.device) = [] := by simp [hne.symm]
    rw [hother, List.append_nil]
    exact h.sums t hmem
  · have hown : [r].filter (·.device = (u.add r).device) = [r] := by simp [device_add, hdevice]
    rw [hown, device_add]
    exact (h.sums u hu).add r
  · have hown : [r].filter (·.device = (start r).device) = [r] := by simp [device_start]
    have hnone : readings.filter (·.device = (start r).device) = [] := by
      refine List.filter_eq_nil_iff.mpr fun s hs heq => hnew ?_
      rw [h.mem_devices, ← device_start r, ← of_decide_eq_true heq]
      exact List.mem_map_of_mem hs
    rw [hown, hnone, List.nil_append]
    exact sums_start r

theorem insert (h : Tallied readings tallies) (r : Reading) :
    Tallied (readings ++ [r]) (insert tallies r) :=
  ⟨h.distinct_insert r, h.devices_insert r, fun _ ht => h.sums_insert ht⟩

theorem foldl_insert {before : List Reading} (h : Tallied before tallies)
    (readings : List Reading) :
    Tallied (before ++ readings) (readings.foldl Tally.insert tallies) := by
  induction readings generalizing before tallies with
  | nil =>
    rw [List.append_nil]
    exact h
  | cons r readings ih =>
    rw [List.foldl_cons, List.append_cons]
    exact ih (h.insert r)

end Tallied

theorem tallied_nil : Tallied [] [] := ⟨List.nodup_nil, rfl, nofun⟩

end Tally

namespace Summary

/-! ### The size of ids -/

/-- Some ids fit words of 64 bits, all signed or all unsigned. -/
def FitWords (ids : List Int) : Prop :=
  (∀ id ∈ ids, -Coercion.wordEnd ≤ id ∧ id < Coercion.wordEnd) ∨
    ∀ id ∈ ids, 0 ≤ id ∧ id < 2 * Coercion.wordEnd

/-- The first of some ids that fits no words together with those before it has a finite double, if
there is such an id. -/
def IdsAreKept (ids : List Int) : Prop :=
  ∀ fit id rest, ids = fit ++ id :: rest → FitWords fit → ¬ FitWords (fit ++ [id]) →
    (Coercion.floatOfInt id).isFinite = true

theorem FitWords.of_append {first second : List Int} (h : FitWords (first ++ second)) :
    FitWords first :=
  h.imp (fun h id hid => h id (List.mem_append_left _ hid))
    (fun h id hid => h id (List.mem_append_left _ hid))

/-- Ids of 64 bits are kept. -/
theorem FitWords.idsAreKept {ids : List Int} (h : FitWords ids) : IdsAreKept ids := by
  rintro fit id rest rfl - hunfit
  rw [List.append_cons] at h
  exact absurd h.of_append hunfit

theorem fitWords_iff (ids : List Int) :
    FitWords ids ↔ (∀ id ∈ ids, -Coercion.wordEnd ≤ id ∧ id < 2 * Coercion.wordEnd) ∧
      ((∀ id ∈ ids, 0 ≤ id) ∨ ∀ id ∈ ids, id < Coercion.wordEnd) := by
  have hpos : 0 < Coercion.wordEnd := by decide
  constructor
  · rintro (h | h)
    · exact ⟨fun id hid => by have := h id hid; omega, .inr fun id hid => (h id hid).2⟩
    · exact ⟨fun id hid => by have := h id hid; omega, .inl fun id hid => (h id hid).1⟩
  · rintro ⟨hrange, h | h⟩
    · exact .inr fun id hid => ⟨h id hid, (hrange id hid).2⟩
    · exact .inl fun id hid => ⟨(hrange id hid).1, h id hid⟩

/-- What is remembered of the ids before another one tells whether it fits with them. -/
theorem fits_iff {before : List Int} (hbefore : FitWords before) (id : Int) :
    (-Coercion.wordEnd ≤ id && id < 2 * Coercion.wordEnd &&
      !((before.any (· < 0) || id < 0) && (before.any (Coercion.wordEnd ≤ ·) ||
        Coercion.wordEnd ≤ id))) = true ↔ FitWords (before ++ [id]) := by
  have hrange := ((fitWords_iff before).mp hbefore).1
  rw [fitWords_iff]
  simp only [List.forall_mem_append, List.forall_mem_singleton, Bool.and_eq_true, Bool.not_eq_true',
    Bool.and_eq_false_iff, Bool.or_eq_false_iff, List.any_eq_false, decide_eq_true_eq,
    decide_eq_false_iff_not, Int.not_lt, Int.not_le]
  exact and_congr_left fun _ => ⟨fun hid => ⟨hrange, hid⟩, And.right⟩

theorem firstUnfit?_eq_some_iff {before ids : List Int} {id : Int} (hbefore : FitWords before) :
    firstUnfit? (before.any (· < 0)) (before.any (Coercion.wordEnd ≤ ·)) ids = some id ↔
      ∃ fit rest, ids = fit ++ id :: rest ∧ FitWords (before ++ fit) ∧
        ¬ FitWords (before ++ fit ++ [id]) := by
  induction ids generalizing before with
  | nil => simp [firstUnfit?]
  | cons first ids ih =>
    unfold firstUnfit?
    by_cases hfirst : FitWords (before ++ [first])
    · -- the first id fits: it is one of those before, and what is remembered says so
      have happend (fit : List Int) : before ++ first :: fit = before ++ [first] ++ fit :=
        List.append_cons before first fit
      have hnext := ih hfirst
      rw [List.any_append, List.any_append] at hnext
      simp only [List.any_cons, List.any_nil, Bool.or_false] at hnext
      dsimp only
      rw [if_pos ((fits_iff hbefore first).mpr hfirst), hnext]
      constructor
      · rintro ⟨fit, rest, rfl, hfit, hunfit⟩
        refine ⟨first :: fit, rest, rfl, ?_⟩
        rw [happend]
        exact ⟨hfit, hunfit⟩
      · rintro ⟨fit, rest, heq, hfit, hunfit⟩
        cases fit with
        | nil =>
          obtain ⟨rfl, rfl⟩ := List.cons.inj heq
          rw [List.append_nil] at hunfit
          exact absurd hfirst hunfit
        | cons second fit =>
          obtain ⟨rfl, rfl⟩ := List.cons.inj heq
          rw [happend] at hfit hunfit
          exact ⟨fit, rest, rfl, hfit, hunfit⟩
    · -- it does not: then it is the one, and no other id can be
      dsimp only
      rw [if_neg (mt (fits_iff hbefore first).mp hfirst)]
      constructor
      · intro heq
        obtain rfl := Option.some.inj heq
        exact ⟨[], ids, rfl, by rwa [List.append_nil], by rwa [List.append_nil]⟩
      · rintro ⟨fit, rest, heq, hfit, -⟩
        cases fit with
        | nil =>
          obtain ⟨rfl, rfl⟩ := List.cons.inj heq
          rfl
        | cons second fit =>
          obtain ⟨rfl, rfl⟩ := List.cons.inj heq
          rw [List.append_cons] at hfit
          exact absurd hfit.of_append hfirst

theorem areKept_iff (ids : List Int) : areKept ids = true ↔ IdsAreKept ids := by
  have hnone : FitWords [] := .inl nofun
  have hfirst {id : Int} := @firstUnfit?_eq_some_iff [] ids id hnone
  unfold areKept IdsAreKept
  cases hunfit : firstUnfit? false false ids with
  | none =>
    refine ⟨fun _ fit id rest hids hfit hnot => ?_, fun _ => rfl⟩
    have : firstUnfit? false false ids = some id := hfirst.mpr ⟨fit, rest, hids, hfit, hnot⟩
    rw [hunfit] at this
    cases this
  | some unfit =>
    obtain ⟨fit, rest, hids, hfit, hnot⟩ := hfirst.mp hunfit
    refine ⟨fun hfinite fit id rest hids hfit hnot => ?_, fun h => h fit unfit rest hids hfit hnot⟩
    have : firstUnfit? false false ids = some id := hfirst.mpr ⟨fit, rest, hids, hfit, hnot⟩
    rw [hunfit] at this
    cases this
    exact hfinite

instance (ids : List Int) : Decidable (IdsAreKept ids) := decidable_of_iff _ (areKept_iff ids)

/-! ### Summaries of readings -/

/-- The compensated sum of some values by their number. -/
def mean (values : List Float) : Float :=
  (values.foldl CompensatedSum.add .zero).sum / Float.ofNat values.length

/-- A count and an average are those of the values of some readings: there is no average of no
readings, nor one that is not a number. -/
structure Averages (count : Int) (average : Option Float) (flagged : List Reading) : Prop where
  count_eq : count = flagged.length
  average_eq : average =
    if count = 0 then none else (some (mean (flagged.map (·.value)))).filter (!·.isNaN)

/-- A summary is what the readings of a device tell. -/
structure Summarizes (s : Summary) (own : List Reading) : Prop where
  names : ∃ r ∈ own.head?, s.companyName = r.companyName ∧ s.deviceName = r.deviceName
  first : ∃ t, s.firstReadingAt = ⟨t, none⟩ ∧ Reading.IsEarliest t own
  last : ∃ t, s.lastReadingAt = ⟨t, none⟩ ∧ Reading.IsLatest t own
  temperature : Averages s.temperatureCount s.averageTemperature (own.filter (·.isTemperature))
  humidity : Averages s.humidityCount s.averageHumidity (own.filter (·.isHumidity))

-- No readings and no number are the two ways to have no average; `Channel` tells them apart by its
-- count, and so does the statement.
theorem averages_ofFlagged (flag : Reading → Bool) (own : List Reading) :
    Averages (Channel.ofFlagged flag own).count (Channel.ofFlagged flag own).average?
      (own.filter flag) := by
  have hcount : (Channel.ofFlagged flag own).count = (own.filter flag).length := by
    simp [Channel.ofFlagged, Channel.ofValues, Channel.count_foldl_add, Channel.empty]
  have htotal : (Channel.ofFlagged flag own).total =
      ((own.filter flag).map (·.value)).foldl CompensatedSum.add .zero :=
    Channel.total_foldl_add _ _
  refine ⟨congrArg Nat.cast hcount, ?_⟩
  unfold Channel.average? mean
  rw [htotal, hcount, List.length_map]
  cases hlength : (own.filter flag).length with
  | zero => rfl
  | succ n =>
    have hne : ((n + 1 : Nat) : Int) ≠ 0 := by omega
    rw [if_neg (Nat.succ_ne_zero n), if_neg hne]
    dsimp only
    rw [Option.filter_some]
    split
    · rename_i hnan
      rw [hnan]
      rfl
    · rename_i hnan
      rw [Bool.eq_false_iff.mpr hnan]
      rfl

theorem summarizes_of_sums {t : Tally} {own : List Reading} (h : t.Sums own) :
    t.summary.Summarizes own where
  names := h.names
  first := ⟨t.first, rfl, h.first⟩
  last := ⟨t.last, rfl, h.last⟩
  temperature := by
    have := averages_ofFlagged (·.isTemperature) own
    rwa [← h.temperature] at this
  humidity := by
    have := averages_ofFlagged (·.isHumidity) own
    rwa [← h.humidity] at this

/-- Some summaries are those of some readings: one for each device in the order in which the devices
first occur, and each of them what the readings of its device tell. -/
structure Summarized (readings : List Reading) (summaries : List Summary) : Prop where
  distinct : (summaries.map device).Nodup
  devices : summaries.map device = (readings.map (·.device)).eraseDups
  tells : ∀ s ∈ summaries, s.Summarizes (readings.filter (·.device = s.device))

theorem summarized_of_tallied {readings : List Reading} {tallies : List Tally}
    (h : Tally.Tallied readings tallies) : Summarized readings (tallies.map Tally.summary) := by
  have hdevice : (tallies.map Tally.summary).map device = tallies.map (·.device) := List.map_map
  refine ⟨hdevice ▸ h.distinct, hdevice.trans h.devices, fun s hs => ?_⟩
  obtain ⟨t, ht, rfl⟩ := List.mem_map.mp hs
  exact summarizes_of_sums (h.sums t ht)

theorem exists_ofReadings_eq_ok {readings : List Reading}
    (hkept : IdsAreKept (readings.map (·.companyId)) ∧ IdsAreKept (readings.map (·.deviceId))) :
    ∃ summaries, ofReadings readings = .ok summaries ∧ Summarized readings summaries := by
  rw [← areKept_iff, ← areKept_iff, ← Bool.and_eq_true] at hkept
  exact ⟨_, if_pos hkept, summarized_of_tallied (Tally.tallied_nil.foldl_insert readings)⟩

theorem ofReadings_eq_error_iff {readings : List Reading} :
    ofReadings readings = .error .idTooLarge ↔
      ¬ (IdsAreKept (readings.map (·.companyId)) ∧ IdsAreKept (readings.map (·.deviceId))) := by
  constructor
  · intro herror hkept
    obtain ⟨summaries, hsummaries, -⟩ := exists_ofReadings_eq_ok hkept
    rw [hsummaries] at herror
    cases herror
  · rw [← areKept_iff, ← areKept_iff, ← Bool.and_eq_true]
    exact fun hnot => if_neg hnot

theorem summarized_of_ofReadings {readings : List Reading} {summaries : List Summary}
    (h : ofReadings readings = .ok summaries) : Summarized readings summaries := by
  by_cases hkept : IdsAreKept (readings.map (·.companyId)) ∧
      IdsAreKept (readings.map (·.deviceId))
  · obtain ⟨found, hfound, hsummarized⟩ := exists_ofReadings_eq_ok hkept
    obtain rfl := Except.ok.inj (h.symm.trans hfound)
    exact hsummarized
  · rw [ofReadings_eq_error_iff.mpr hkept] at h
    cases h

/-- Readings whose ids are kept have one summary for each device, in the order in which the devices
first occur, and it tells what the readings of its device tell. Other readings have none. -/
theorem ofReadings_summarizes_devices (readings : List Reading) :
    (IdsAreKept (readings.map (·.companyId)) ∧ IdsAreKept (readings.map (·.deviceId)) →
      ∃ summaries, ofReadings readings = .ok summaries ∧ (summaries.map device).Nodup ∧
        summaries.map device = (readings.map (·.device)).eraseDups ∧
        ∀ s ∈ summaries, s.Summarizes (readings.filter (·.device = s.device))) ∧
    (¬ (IdsAreKept (readings.map (·.companyId)) ∧ IdsAreKept (readings.map (·.deviceId))) →
      ofReadings readings = .error .idTooLarge) := by
  refine ⟨fun hkept => ?_, ofReadings_eq_error_iff.mpr⟩
  obtain ⟨summaries, hsummaries, h⟩ := exists_ofReadings_eq_ok hkept
  exact ⟨summaries, hsummaries, h.distinct, h.devices, h.tells⟩

/-- A reading of a company whose id has no finite double. -/
def hugeReading : Reading where
  companyId := Nat.pow 10 309
  companyName := "a"
  deviceId := 10
  deviceName := "d"
  isTemperature := true
  isHumidity := false
  createdAt := ⟨738885 * microsPerDay, by decide⟩
  value := 1.0
  value_isFinite := by decide

theorem ofReadings_refuses_a_huge_id : ofReadings [hugeReading] = .error .idTooLarge := by
  have hunkept : areKept [hugeReading.companyId] = false := by decide +kernel
  exact if_neg (by rw [List.map_singleton, hunkept]; nofun)

end Summary

end FeedMerge
