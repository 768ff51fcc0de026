import FeedMerge.Projection
import FeedMerge.Proofs.Result
import FeedMerge.Proofs.Timestamp.Utc

/-!
# Readings field by field

A reading is made up of eight fields that know nothing of each other. `Field.coerce` is what a field
makes of a value of its own; it has no result only where the moment of a reading lies beyond the
calendar. Otherwise a reading holds exactly what the fields make of their values
(`Draft.ofValues_read_eq_ok_iff`), and where there is none, all fields that refuse their value are
listed (`Draft.ofValues_read_eq_rejected`).

What a context makes up is read off the values of these names, whatever else it holds.
-/

namespace FeedMerge

namespace Reading

variable {now : Timestamp}

/-! ### Fields and what they hold -/

def Field.all : List Field :=
  [.companyId, .companyName, .deviceId, .deviceName, .isTemperature, .isHumidity, .createdAt,
    .value]

theorem Field.mem_all (field : Field) : field ∈ Field.all := by
  cases field <;> decide

theorem Field.forall_iff {p : Field → Prop} :
    (∀ field, p field) ↔ p .companyId ∧ p .companyName ∧ p .deviceId ∧ p .deviceName ∧
      p .isTemperature ∧ p .isHumidity ∧ p .createdAt ∧ p .value := by
  constructor
  · intro h
    exact ⟨h _, h _, h _, h _, h _, h _, h _, h _⟩
  · rintro ⟨h₁, h₂, h₃, h₄, h₅, h₆, h₇, h₈⟩ field
    cases field <;> assumption

/-- What a field of a reading holds. -/
abbrev Field.Value : Field → Type
  | .companyId => Int
  | .companyName => String
  | .deviceId => Int
  | .deviceName => String
  | .isTemperature => Bool
  | .isHumidity => Bool
  | .createdAt => Timestamp
  | .value => { x : Float // x.isFinite = true }

def get (r : Reading) : (field : Field) → field.Value
  | .companyId => r.companyId
  | .companyName => r.companyName
  | .deviceId => r.deviceId
  | .deviceName => r.deviceName
  | .isTemperature => r.isTemperature
  | .isHumidity => r.isHumidity
  | .createdAt => r.createdAt
  | .value => ⟨r.value, r.value_isFinite⟩

/-- The reading that holds some values. -/
def ofContents (contents : (field : Field) → field.Value) : Reading where
  companyId := contents .companyId
  companyName := contents .companyName
  deviceId := contents .deviceId
  deviceName := contents .deviceName
  isTemperature := contents .isTemperature
  isHumidity := contents .isHumidity
  createdAt := contents .createdAt
  value := (contents .value).1
  value_isFinite := (contents .value).2

theorem get_ofContents (contents : (field : Field) → field.Value) (field : Field) :
    (ofContents contents).get field = contents field := by
  cases field <;> rfl

/-- What a field makes of a value at a reading of the clock: its own coercion. -/
def Field.coerce (now : Timestamp) : (field : Field) → Json →
    Except Timestamp.RangeError (Except Mismatch field.Value)
  | .companyId, v => .ok (Coercion.integer v)
  | .companyName, v => .ok (Coercion.name v)
  | .deviceId, v => .ok (Coercion.integer v)
  | .deviceName, v => .ok (Coercion.name v)
  | .isTemperature, v => .ok (Coercion.boolean v)
  | .isHumidity, v => .ok (Coercion.boolean v)
  | .createdAt, v =>
    (Timestamp.ofSource now (.value v)).map (·.mapError (Coercion.mismatchOfRefusal v.inspect))
  | .value, v => .ok (Coercion.finiteNumber v)

def Field.Accepts (now : Timestamp) (field : Field) (v : Json) : Prop :=
  ∃ x, field.coerce now v = .ok (.ok x)

/-- The rejection of a value by a field that refuses it. -/
def Field.rejection? (now : Timestamp) (field : Field) (v : Json) : Option Rejection :=
  match field.coerce now v with
  | .ok (.error mismatch) => some ⟨field, v.inspect, mismatch⟩
  | _ => none

theorem Field.coerce_eq_error_iff {field : Field} {v : Json} {error : Timestamp.RangeError} :
    field.coerce now v = .error error ↔ field = .createdAt ∧ Timestamp.IsBeyondCalendar now v := by
  rw [← @Timestamp.ofSource_eq_error_iff now _ error]
  cases field <;> simp [Field.coerce, Except.map_eq_error]

theorem Field.rejection?_eq_none_iff {field : Field} {v : Json}
    (h : field = .createdAt → ¬ Timestamp.IsBeyondCalendar now v) :
    field.rejection? now v = none ↔ field.Accepts now v := by
  rw [Field.rejection?, Field.Accepts]
  rcases hcoerce : field.coerce now v with error | mismatch | x
  · obtain ⟨hcreatedAt, hbeyond⟩ := Field.coerce_eq_error_iff.mp hcoerce
    exact absurd hbeyond (h hcreatedAt)
  · simp
  · simp

/-! ### Drafts with a value for every field -/

namespace Draft

def ofValues (values : Field → Json) : Draft where
  companyId := some (values .companyId)
  companyName := some (values .companyName)
  deviceId := some (values .deviceId)
  deviceName := some (values .deviceName)
  isTemperature := some (values .isTemperature)
  isHumidity := some (values .isHumidity)
  createdAt := some (.value (values .createdAt))
  value := some (values .value)

theorem take_eq_ok {α : Type} {field : Field} {coerce : Json → Except Mismatch α} {v : Json}
    {x : α} : take field coerce (some v) = .ok x ↔ coerce v = .ok x := by
  rw [take]
  exact Except.mapError_eq_ok

/-- A reading is what is collected exactly if each of its fields is what was taken for it. -/
theorem collect_eq_ok {d : Draft} {createdAt : Collected Timestamp} {r : Reading} :
    d.collect createdAt = .ok r ↔
      take .companyId Coercion.integer d.companyId = .ok r.companyId ∧
      take .companyName Coercion.name d.companyName = .ok r.companyName ∧
      take .deviceId Coercion.integer d.deviceId = .ok r.deviceId ∧
      take .deviceName Coercion.name d.deviceName = .ok r.deviceName ∧
      take .isTemperature Coercion.boolean d.isTemperature = .ok r.isTemperature ∧
      take .isHumidity Coercion.boolean d.isHumidity = .ok r.isHumidity ∧
      createdAt = .ok r.createdAt ∧
      take .value Coercion.finiteNumber d.value = .ok ⟨r.value, r.value_isFinite⟩ := by
  constructor
  · intro h
    rw [collect] at h
    split at h
    · cases h
    · rename_i heq
      cases h
      simpa only [Checked.both_eq_ok, and_assoc] using heq
  · rintro ⟨h₁, h₂, h₃, h₄, h₅, h₆, h₇, h₈⟩
    rw [collect, h₁, h₂, h₃, h₄, h₅, h₆, h₇, h₈]
    rfl

theorem defects_collect (d : Draft) (createdAt : Collected Timestamp) :
    (d.collect createdAt).defects =
      (take .companyId Coercion.integer d.companyId).defects ++
      (take .companyName Coercion.name d.companyName).defects ++
      (take .deviceId Coercion.integer d.deviceId).defects ++
      (take .deviceName Coercion.name d.deviceName).defects ++
      (take .isTemperature Coercion.boolean d.isTemperature).defects ++
      (take .isHumidity Coercion.boolean d.isHumidity).defects ++
      createdAt.defects ++
      (take .value Coercion.finiteNumber d.value).defects := by
  have hpairs : (d.collect createdAt).defects =
      ((((take .companyId Coercion.integer d.companyId).both
          (take .companyName Coercion.name d.companyName)).both
        ((take .deviceId Coercion.integer d.deviceId).both
          (take .deviceName Coercion.name d.deviceName))).both
        (((take .isTemperature Coercion.boolean d.isTemperature).both
          (take .isHumidity Coercion.boolean d.isHumidity)).both
        (createdAt.both (take .value Coercion.finiteNumber d.value)))).defects := by
    rw [collect]
    split
    · rename_i heq
      rw [heq]
      rfl
    · rename_i heq
      rw [heq]
      rfl
  simp only [hpairs, Checked.defects_both, List.append_assoc]

theorem read_eq_ok_iff {d : Draft} {r : Reading} :
    d.read now = .ok r ↔
      ∃ createdAt, takeTimestamp now d.createdAt = .ok createdAt ∧ d.collect createdAt = .ok r := by
  rw [read]
  cases takeTimestamp now d.createdAt with
  | error e => simp
  | ok createdAt => simp [Except.mapError_eq_ok]

theorem takeTimestamp_eq_ok {v : Json} {t : Timestamp} :
    takeTimestamp now (some (.value v)) = .ok (.ok t) ↔
      Timestamp.ofSource now (.value v) = .ok (.ok t) := by
  rw [takeTimestamp]
  rcases Timestamp.ofSource now (.value v) with error | refusal | own <;> simp

theorem coerce_createdAt_eq_ok {v : Json} {t : Timestamp} :
    Field.createdAt.coerce now v = .ok (.ok t) ↔
      Timestamp.ofSource now (.value v) = .ok (.ok t) := by
  rw [Field.coerce, Except.map_eq_ok]
  constructor
  · rintro ⟨result, hresult, hok⟩
    rw [hresult, Except.mapError_eq_ok.mp hok]
  · intro h
    exact ⟨.ok t, h, rfl⟩

variable {values : Field → Json}

theorem ofValues_read_eq_ok_iff {r : Reading} :
    (ofValues values).read now = .ok r ↔
      ∀ field : Field, field.coerce now (values field) = .ok (.ok (r.get field)) := by
  rw [read_eq_ok_iff, Field.forall_iff]
  constructor
  · rintro ⟨createdAt, htaken, hcollect⟩
    obtain ⟨h₁, h₂, h₃, h₄, h₅, h₆, rfl, h₈⟩ := collect_eq_ok.mp hcollect
    exact ⟨congrArg _ (take_eq_ok.mp h₁), congrArg _ (take_eq_ok.mp h₂),
      congrArg _ (take_eq_ok.mp h₃), congrArg _ (take_eq_ok.mp h₄), congrArg _ (take_eq_ok.mp h₅),
      congrArg _ (take_eq_ok.mp h₆), coerce_createdAt_eq_ok.mpr (takeTimestamp_eq_ok.mp htaken),
      congrArg _ (take_eq_ok.mp h₈)⟩
  · rintro ⟨h₁, h₂, h₃, h₄, h₅, h₆, h₇, h₈⟩
    refine ⟨.ok r.createdAt, takeTimestamp_eq_ok.mpr (coerce_createdAt_eq_ok.mp h₇),
      collect_eq_ok.mpr ?_⟩
    exact ⟨take_eq_ok.mpr (Except.ok.inj h₁), take_eq_ok.mpr (Except.ok.inj h₂),
      take_eq_ok.mpr (Except.ok.inj h₃), take_eq_ok.mpr (Except.ok.inj h₄),
      take_eq_ok.mpr (Except.ok.inj h₅), take_eq_ok.mpr (Except.ok.inj h₆), rfl,
      take_eq_ok.mpr (Except.ok.inj h₈)⟩

theorem defects_take {field : Field} {coerce : Json → Except Mismatch field.Value} {v : Json}
    (h : field.coerce now v = .ok (coerce v)) :
    (take field coerce (some v)).defects = (field.rejection? now v).toList := by
  rw [take, Field.rejection?, h]
  cases coerce v <;> rfl

theorem exists_takeTimestamp {v : Json} (h : ¬ Timestamp.IsBeyondCalendar now v) :
    ∃ createdAt, takeTimestamp now (some (.value v)) = .ok createdAt ∧
      createdAt.defects = (Field.createdAt.rejection? now v).toList := by
  rw [takeTimestamp, Field.rejection?, Field.coerce]
  cases hsource : Timestamp.ofSource now (.value v) with
  | error error => exact absurd (Timestamp.ofSource_eq_error_iff.mp hsource) h
  | ok result => cases result <;> exact ⟨_, rfl, rfl⟩

theorem defects_collect_ofValues {createdAt : Collected Timestamp}
    (h : createdAt.defects = (Field.createdAt.rejection? now (values .createdAt)).toList) :
    ((ofValues values).collect createdAt).defects =
      Field.all.filterMap fun field => field.rejection? now (values field) := by
  rw [defects_collect, h, List.filterMap_eq_flatMap_toList]
  dsimp only [ofValues]
  rw [@defects_take now .companyId Coercion.integer _ rfl,
    @defects_take now .companyName Coercion.name _ rfl,
    @defects_take now .deviceId Coercion.integer _ rfl,
    @defects_take now .deviceName Coercion.name _ rfl,
    @defects_take now .isTemperature Coercion.boolean _ rfl,
    @defects_take now .isHumidity Coercion.boolean _ rfl,
    @defects_take now .value Coercion.finiteNumber _ rfl]
  simp only [Field.all, List.flatMap_cons, List.flatMap_nil, List.append_nil, List.append_assoc]

theorem ofValues_read_eq_rejected
    (hcovered : ¬ Timestamp.IsBeyondCalendar now (values .createdAt))
    (hrefused : ¬ ∀ field : Field, field.Accepts now (values field)) :
    (ofValues values).read now = .error
      (.rejected (Field.all.filterMap fun field => field.rejection? now (values field))) := by
  obtain ⟨createdAt, htaken, hdefects⟩ := exists_takeTimestamp hcovered
  rw [← defects_collect_ofValues hdefects]
  cases hcollect : (ofValues values).collect createdAt with
  | ok r =>
    have hread := ofValues_read_eq_ok_iff.mp (read_eq_ok_iff.mpr ⟨createdAt, htaken, hcollect⟩)
    exact absurd (fun field => ⟨_, hread field⟩) hrefused
  | error rejections =>
    have hdraft : takeTimestamp now (ofValues values).createdAt = .ok createdAt := htaken
    rw [read, hdraft]
    dsimp only
    rw [hcollect]
    rfl

end Draft

end Reading

/-! ### Contexts -/

namespace Context

open Reading

/-- The fields that are absent or null, in order. -/
def unset (c : Context) : List Field :=
  Field.all.filter fun field => Draft.isUnset (c.get? field.name)

theorem mem_unset {c : Context} {field : Field} :
    field ∈ c.unset ↔ c.get? field.name = none ∨ c.get? field.name = some .null := by
  rw [unset, List.mem_filter, and_iff_right field.mem_all]
  rcases c.get? field.name with _ | _ | _ | _ | _ | _ | _ | _ <;> simp [Draft.isUnset]

theorem missing_draft (c : Context) : c.draft.missing = c.unset := by
  have hcons (p : Field → Bool) (field : Field) (fields : List Field) :
      (field :: fields).filter p = (if p field then [field] else []) ++ fields.filter p := by
    cases h : p field <;> simp [h]
  have hsource (found : Option Json) :
      Draft.isSourceUnset (found.map .value) = Draft.isUnset found := by
    rcases found with _ | _ | _ | _ | _ | _ | _ | _ <;> rfl
  simp only [unset, Field.all, hcons, List.filter_nil, List.append_nil, Draft.missing, draft,
    Draft.ofFields, hsource, get?, List.append_assoc]
  rfl

theorem draft_congr {c other : Context}
    (h : ∀ field : Field, other.get? field.name = c.get? field.name) : other.draft = c.draft := by
  obtain ⟨h₁, h₂, h₃, h₄, h₅, h₆, h₇, h₈⟩ := Field.forall_iff.mp h
  rw [get?, get?] at h₁ h₂ h₃ h₄ h₅ h₆ h₇ h₈
  rw [draft, draft, Draft.ofFields, Draft.ofFields, h₁, h₂, h₃, h₄, h₅, h₆, h₇, h₈]

theorem draft_eq_ofValues {c : Context} {values : Field → Json}
    (h : ∀ field : Field, c.get? field.name = some (values field)) :
    c.draft = .ofValues values := by
  obtain ⟨h₁, h₂, h₃, h₄, h₅, h₆, h₇, h₈⟩ := Field.forall_iff.mp h
  rw [get?] at h₁ h₂ h₃ h₄ h₅ h₆ h₇ h₈
  rw [draft, Draft.ofFields, h₁, h₂, h₃, h₄, h₅, h₆, h₇, h₈]
  rfl

end Context

namespace Projection

open Reading

variable {c : Context} {location : Location}

theorem build_of_unset {field : Field} (h : field ∈ c.unset) :
    build (c.descend location) = .error (.fault ⟨.incompleteReading c.unset, location, none⟩) := by
  have hmissing : (c.descend location).draft.missing = c.unset := c.missing_draft
  rw [build, hmissing, List.isEmpty_eq_false_iff.mpr (List.ne_nil_of_mem h)]
  rfl

theorem build_of_values {values : Field → Json}
    (h : ∀ field : Field, c.get? field.name = some (values field) ∧ values field ≠ .null) :
    build (c.descend location) =
      match (Draft.ofValues values).read c.now with
      | .ok reading => .ok reading
      | .error (.rejected rejections) =>
        .error (.fault ⟨.rejectedReading rejections, location, none⟩)
      | .error (.outOfRange error) => .error (.timestamp error) := by
  have hmissing : (c.descend location).draft.missing = [] := by
    rw [show (c.descend location).draft.missing = c.unset from c.missing_draft,
      List.eq_nil_iff_forall_not_mem]
    intro field hunset
    rcases Context.mem_unset.mp hunset with hnone | hnull
    · exact absurd ((h field).1.symm.trans hnone) (Option.some_ne_none _)
    · exact (h field).2 (Option.some.inj ((h field).1.symm.trans hnull))
  have hdraft : (c.descend location).draft = Draft.ofValues values :=
    Context.draft_eq_ofValues fun field => (h field).1
  rw [build, hmissing, hdraft]
  rfl

theorem build_eq_ok_iff_coerce {values : Field → Json}
    (h : ∀ field : Field, c.get? field.name = some (values field) ∧ values field ≠ .null)
    {r : Reading} :
    build (c.descend location) = .ok r ↔
      ∀ field : Field, field.coerce c.now (values field) = .ok (.ok (r.get field)) := by
  rw [build_of_values h, ← Draft.ofValues_read_eq_ok_iff]
  rcases (Draft.ofValues values).read c.now with (_ | _) | _ <;> simp

theorem exists_build_eq_ok_iff {values : Field → Json}
    (h : ∀ field : Field, c.get? field.name = some (values field) ∧ values field ≠ .null) :
    (∃ r, build (c.descend location) = .ok r) ↔
      ∀ field : Field, field.Accepts c.now (values field) := by
  constructor
  · rintro ⟨r, hr⟩ field
    exact ⟨r.get field, (build_eq_ok_iff_coerce h).mp hr field⟩
  · intro haccepts
    choose contents hcontents using haccepts
    refine ⟨.ofContents contents, (build_eq_ok_iff_coerce h).mpr fun field => ?_⟩
    rw [get_ofContents, hcontents]

/-- The record of a context depends only on the values of the eight names, at one reading of the
clock. Fields that are absent or null are what it fails by, all of them in order, whatever the other
values are. Otherwise, and unless the moment lies beyond the calendar, there is a record exactly if
every field accepts its own value, and it holds what the fields make of them; if some do not, it
fails by these, each with its own value and in order. -/
theorem records_are_decided_field_by_field (c : Context) (location : Location) :
    (∀ other : Context, other.now = c.now →
      (∀ field : Field, other.get? field.name = c.get? field.name) →
      build (other.descend location) = build (c.descend location)) ∧
    ((∀ field : Field,
        field ∈ c.unset ↔ c.get? field.name = none ∨ c.get? field.name = some .null) ∧
      (c.unset ≠ [] → build (c.descend location) =
        .error (.fault ⟨.incompleteReading c.unset, location, none⟩))) ∧
    ∀ values : Field → Json,
      (∀ field : Field, c.get? field.name = some (values field) ∧ values field ≠ .null) →
      ¬ Timestamp.IsBeyondCalendar c.now (values .createdAt) →
        (∀ r : Reading, build (c.descend location) = .ok r ↔
          ∀ field : Field, field.coerce c.now (values field) = .ok (.ok (r.get field))) ∧
        ((∃ r : Reading, build (c.descend location) = .ok r) ↔
          ∀ field : Field, field.Accepts c.now (values field)) ∧
        (∀ field : Field,
          field.rejection? c.now (values field) = none ↔ field.Accepts c.now (values field)) ∧
        ((¬ ∀ field : Field, field.Accepts c.now (values field)) →
          build (c.descend location) = .error (.fault ⟨.rejectedReading
            (Field.all.filterMap fun field => field.rejection? c.now (values field)), location,
            none⟩)) := by
  refine ⟨fun other hnow hagree => ?_, ⟨fun field => Context.mem_unset, fun hunset => ?_⟩,
    fun values hvalues hcovered => ⟨fun r => build_eq_ok_iff_coerce hvalues,
      exists_build_eq_ok_iff hvalues, fun field => ?_, fun hrefused => ?_⟩⟩
  · have hdraft : (other.descend location).draft = (c.descend location).draft :=
      Context.draft_congr hagree
    have hclock : (other.descend location).now = (c.descend location).now := hnow
    rw [build, build, hdraft, hclock]
    rfl
  · obtain ⟨field, hfield⟩ := List.exists_mem_of_ne_nil _ hunset
    exact build_of_unset hfield
  · exact Field.rejection?_eq_none_iff fun hcreatedAt => hcreatedAt ▸ hcovered
  · rw [build_of_values hvalues, Draft.ofValues_read_eq_rejected hcovered hrefused]

/-- Values of which those of the device and the measured one suit no reading. -/
def unsuitedValues : Field → Json
  | .companyId => .string "7"
  | .companyName => .bool true
  | .deviceId => .string "twelve"
  | .deviceName => .array []
  | .isTemperature => .string "Yes"
  | .isHumidity => .int 0
  | .createdAt => .string "2024-02-29T23:30:00-01:00"
  | .value => .string "warm"

def unsuitedContext : Context where
  values := ("Unit", .string "C") ::
    Field.all.reverse.map fun field => (field.name, unsuitedValues field)
  now := Timestamp.leapNight

/-- A context without a measured value fails by that alone, and with one by all that is unsuited. -/
theorem unsuited_record_is_refused :
    (∀ field : Field, unsuitedContext.get? field.name = some (unsuitedValues field) ∧
      unsuitedValues field ≠ .null) ∧
    ¬ Timestamp.IsBeyondCalendar unsuitedContext.now (unsuitedValues .createdAt) ∧
    (¬ ∀ field : Field, field.Accepts unsuitedContext.now (unsuitedValues field)) ∧
    build (unsuitedContext.descend (Location.root.index 4)) =
      .error (.fault ⟨.rejectedReading [⟨.deviceId, "'twelve'", .integerText⟩,
        ⟨.deviceName, "[]", .notText⟩, ⟨.value, "'warm'", .numberText⟩],
        Location.root.index 4, none⟩) ∧
    build ((unsuitedContext.overlay [("Value", .null)]).descend .root) =
      .error (.fault ⟨.incompleteReading [.value], .root, none⟩) := by
  have hvalues (field : Field) : unsuitedContext.get? field.name = some (unsuitedValues field) ∧
      unsuitedValues field ≠ .null := by
    cases field <;> exact ⟨rfl, nofun⟩
  have hcovered : ¬ Timestamp.IsBeyondCalendar unsuitedContext.now (unsuitedValues .createdAt) := by
    intro hbeyond
    have hread : (Timestamp.ofSource unsuitedContext.now
        (.value (unsuitedValues .createdAt))).isOk = true := by
      decide +kernel
    rw [@Timestamp.ofSource_eq_error_iff _ _ .beyondCalendar |>.mpr hbeyond] at hread
    cases hread
  have hrefused : ¬ ∀ field : Field, field.Accepts unsuitedContext.now (unsuitedValues field) := by
    intro haccepts
    obtain ⟨x, hx⟩ := haccepts .deviceName
    cases hx
  have hrejections :
      (Field.all.filterMap fun field =>
        field.rejection? unsuitedContext.now (unsuitedValues field)) =
      [⟨.deviceId, "'twelve'", .integerText⟩, ⟨.deviceName, "[]", .notText⟩,
        ⟨.value, "'warm'", .numberText⟩] := by
    decide +kernel
  refine ⟨hvalues, hcovered, hrefused, ?_, ?_⟩
  · rw [((records_are_decided_field_by_field unsuitedContext (Location.root.index 4)).2.2
      unsuitedValues hvalues hcovered).2.2.2 hrefused, hrejections]
  · have hunset : (unsuitedContext.overlay [("Value", .null)]).unset = [.value] := by decide +kernel
    rw [(records_are_decided_field_by_field (unsuitedContext.overlay [("Value", .null)])
      .root).2.1.2 (hunset ▸ List.cons_ne_nil _ _), hunset]

end Projection

end FeedMerge
