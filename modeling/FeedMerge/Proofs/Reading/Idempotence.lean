import FeedMerge.Proofs.Reading.FieldByField

/-!
# Readings that are read again

What a field has made of a value it takes as it is: an integer, a name, a truth value and a number
each stand for themselves, and a moment is found again in its text (`Timestamp.ofSource_toIso`). So
a reading is read from its own fields, whether its moment is given as a date-time or as a text.
-/

namespace FeedMerge

namespace Timestamp

theorem ofSource_dateTime (now t : Timestamp) :
    ofSource now (.dateTime ⟨t, none⟩) = .ok (.ok t) := by
  rw [ofSource, ofLocal_moment]
  rfl

theorem tells_toIso (t : Timestamp) : Tells t 0 t.toIso := by
  have htells := @Tells.intro t 0 [] [] [] .untold (List.forall_mem_nil _) (List.forall_mem_nil _)
  rwa [List.nil_append, List.append_nil, List.append_nil, String.ofList_toList] at htells

/-- Printing a timestamp and taking it from the text again. -/
theorem ofSource_toIso (now t : Timestamp) :
    ofSource now (.value (.string t.toIso)) = .ok (.ok t) :=
  t.tells_toIso.ofSource_eq_ok rfl

/-- Nineteen characters down to the second, and six digits behind a point unless they are zero. -/
theorem exists_toList_toIso (t : Timestamp) : ∃ seconds : List Char, seconds.length = 19 ∧
    t.toIso.toList =
      seconds ++ if t.clock.micro = 0 then [] else '.' :: padded 6 t.clock.micro := by
  have htwo {n : Nat} (h : n < 60) : (padded 2 n).length = 2 :=
    length_padded (by decide) (h.trans (by decide))
  obtain ⟨hhour, hminute, hsecond, -⟩ := t.isValid_clock
  have hdate := Iso.length_dateChars t.isValid_date
  refine ⟨dateChars t.date ++ 'T' :: padded 2 t.clock.hour ++ ':' :: padded 2 t.clock.minute ++
    ':' :: padded 2 t.clock.second, ?_, ?_⟩
  · simp only [List.length_append, List.length_cons, hdate, htwo (hhour.trans (by decide)),
      htwo hminute, htwo hsecond]
  · rw [toList_toIso, clockChars]
    simp only [List.append_assoc, List.cons_append]

end Timestamp

namespace Reading

/-- What a field holds as a value of its own; a moment is written as text. -/
def Field.toJson : (field : Field) → field.Value → Json
  | .companyId, n => .int n
  | .companyName, s => .string s
  | .deviceId, n => .int n
  | .deviceName, s => .string s
  | .isTemperature, b => .bool b
  | .isHumidity, b => .bool b
  | .createdAt, t => .string t.toIso
  | .value, x => .float x.1

theorem finiteNumber_float (x : { x : Float // x.isFinite = true }) :
    Coercion.finiteNumber (.float x.1) = .ok x := by
  rw [Coercion.finiteNumber, Coercion.number]
  exact dif_pos x.2

/-- Every coercion takes what it gives. -/
theorem Field.coerce_toJson (now : Timestamp) (field : Field) (x : field.Value) :
    field.coerce now (field.toJson x) = .ok (.ok x) := by
  cases field with
  | createdAt => exact Draft.coerce_createdAt_eq_ok.mpr (Timestamp.ofSource_toIso now x)
  | value => exact congrArg Except.ok (finiteNumber_float x)
  | _ => rfl

/-- The draft that holds the fields of a reading, with the moment as text. -/
def toTextDraft (r : Reading) : Draft :=
  { r.toDraft with createdAt := some (.value (.string r.createdAt.toIso)) }

theorem read_toTextDraft (r : Reading) (now : Timestamp) : r.toTextDraft.read now = .ok r := by
  change (Draft.ofValues fun field => field.toJson (r.get field)).read now = .ok r
  exact Draft.ofValues_read_eq_ok_iff.mpr fun field => field.coerce_toJson now (r.get field)

theorem read_toDraft (r : Reading) (now : Timestamp) : r.toDraft.read now = .ok r := by
  have htaken : Draft.takeTimestamp now r.toDraft.createdAt = .ok (.ok r.createdAt) := by
    change Draft.takeTimestamp now (some (.dateTime ⟨r.createdAt, none⟩)) = _
    rw [Draft.takeTimestamp, Timestamp.ofSource_dateTime]
  -- The two drafts differ in nothing but what the moment is taken from.
  obtain ⟨createdAt, -, hcollect⟩ := Draft.read_eq_ok_iff.mp (r.read_toTextDraft now)
  obtain ⟨-, -, -, -, -, -, rfl, -⟩ := Draft.collect_eq_ok.mp hcollect
  exact Draft.read_eq_ok_iff.mpr ⟨.ok r.createdAt, htaken, hcollect⟩

/-- A reading that is made from any values is made again from its own fields, and from its own
fields with the moment as text, also when the clock has gone on. Each coercion keeps what it gives,
and so does taking a timestamp, whose text has six digits of microseconds only if they are not zero.
-/
theorem coercion_is_idempotent (now later : Timestamp) :
    (∀ (d : Draft) (r : Reading), d.read now = .ok r →
      r.toDraft.read later = .ok r ∧ r.toTextDraft.read later = .ok r) ∧
    (∀ (field : Field) (v : Json) (x : field.Value), field.coerce now v = .ok (.ok x) →
      field.coerce later (field.toJson x) = .ok (.ok x)) ∧
    (∀ (source : Timestamp.Source) (t : Timestamp), Timestamp.ofSource now source = .ok (.ok t) →
      Timestamp.ofSource later (.dateTime ⟨t, none⟩) = .ok (.ok t) ∧
      Timestamp.ofSource later (.value (.string t.toIso)) = .ok (.ok t)) ∧
    ∀ t : Timestamp, ∃ seconds : List Char, seconds.length = 19 ∧ t.toIso.toList =
      seconds ++ if t.clock.micro = 0 then [] else '.' :: Timestamp.padded 6 t.clock.micro :=
  ⟨fun _ r _ => ⟨r.read_toDraft later, r.read_toTextDraft later⟩,
    fun field _ x _ => field.coerce_toJson later x,
    fun _ t _ => ⟨Timestamp.ofSource_dateTime later t, Timestamp.ofSource_toIso later t⟩,
    fun t => t.exists_toList_toIso⟩

/-- Texts and truth values in place of numbers and names, and a moment with an offset. -/
def looseDraft : Draft :=
  .ofList [.string " 7 ", .bool true, .float 12.0, .int 3, .string "Yes", .int 0,
    .string "2024-02-29T23:30:00.5-01:00", .string "20.50"]

def looseReading : Reading where
  companyId := 7
  companyName := "True"
  deviceId := 12
  deviceName := "3"
  isTemperature := true
  isHumidity := false
  createdAt := Timestamp.leapNight
  value := 20.5
  value_isFinite := by decide +kernel

theorem loose_draft_is_read_again :
    looseDraft.read Timestamp.leapEvening = .ok looseReading ∧
      looseReading.toDraft.read Timestamp.leapNight = .ok looseReading ∧
      looseReading.toTextDraft.read Timestamp.leapNight = .ok looseReading := by
  have hread : looseDraft.read Timestamp.leapEvening = .ok looseReading :=
    Except.toOption_eq_some.mp (by decide +kernel)
  exact ⟨hread, (coercion_is_idempotent Timestamp.leapEvening Timestamp.leapNight).1 looseDraft
    looseReading hread⟩

end Reading

end FeedMerge
