import FeedMerge.Checked
import FeedMerge.Reading.Coercion

/-!
# Readings

A reading is one measurement of a device, with all eight fields resolved. It is built from a draft,
which holds a value for each field or none. `Draft.read` coerces every field on its own: it gives a
reading exactly if each field accepts its value, and otherwise lists the refused ones in the order
of the fields. Only a timestamp beyond the calendar ends the reading at once, whatever the other
fields hold.
-/

namespace FeedMerge

structure Reading where
  companyId : Int
  companyName : String
  deviceId : Int
  deviceName : String
  isTemperature : Bool
  isHumidity : Bool
  createdAt : Timestamp
  value : Float
  value_isFinite : value.isFinite = true
  deriving DecidableEq

namespace Reading

/-- The fields of a reading, in order. -/
inductive Field where
  | companyId
  | companyName
  | deviceId
  | deviceName
  | isTemperature
  | isHumidity
  | createdAt
  | value
  deriving DecidableEq, Repr

/-- The name that a mapping gives a field its value by. -/
def Field.name : Field → String
  | .companyId => "CompanyId"
  | .companyName => "CompanyName"
  | .deviceId => "DeviceId"
  | .deviceName => "DeviceName"
  | .isTemperature => "isTemperature"
  | .isHumidity => "isHumidity"
  | .createdAt => "Dtm"
  | .value => "Value"

/-- The name of a field inside a record, as the log and the checks of records give it. -/
def Field.key : Field → String
  | .companyId => "company_id"
  | .companyName => "company_name"
  | .deviceId => "device_id"
  | .deviceName => "device_name"
  | .isTemperature => "is_temperature"
  | .isHumidity => "is_humidity"
  | .createdAt => "created_at"
  | .value => "value"

/-- A field that refuses its value, shown as messages show it. -/
structure Rejection where
  field : Field
  shown : String
  mismatch : Mismatch
  deriving DecidableEq, Repr

def Rejection.message (r : Rejection) : String :=
  s!"{r.field.name}={r.shown} ({r.mismatch.message})"

/-- A value, or the rejections of fields that it takes. -/
abbrev Collected (α : Type) := Checked Rejection α

/-! ### Drafts -/

/-- The values at hand for the fields of a reading. -/
structure Draft where
  companyId : Option Json := none
  companyName : Option Json := none
  deviceId : Option Json := none
  deviceName : Option Json := none
  isTemperature : Option Json := none
  isHumidity : Option Json := none
  createdAt : Option Timestamp.Source := none
  value : Option Json := none

namespace Draft

/-- The draft that takes each field by its name. -/
def ofFields (fields : Fields) : Draft where
  companyId := fields.find? Field.companyId.name
  companyName := fields.find? Field.companyName.name
  deviceId := fields.find? Field.deviceId.name
  deviceName := fields.find? Field.deviceName.name
  isTemperature := fields.find? Field.isTemperature.name
  isHumidity := fields.find? Field.isHumidity.name
  createdAt := (fields.find? Field.createdAt.name).map .value
  value := fields.find? Field.value.name

/-- The draft that takes the fields in order from a list; missing items leave the last fields out.
-/
def ofList (values : List Json) : Draft where
  companyId := values[0]?
  companyName := values[1]?
  deviceId := values[2]?
  deviceName := values[3]?
  isTemperature := values[4]?
  isHumidity := values[5]?
  createdAt := (values[6]?).map .value
  value := values[7]?

/-- Absent, or null. -/
def isUnset : Option Json → Bool
  | none => true
  | some .null => true
  | some _ => false

def isSourceUnset : Option Timestamp.Source → Bool
  | none => true
  | some (.value .null) => true
  | some _ => false

/-- The fields without a value, in order. -/
def missing (d : Draft) : List Field :=
  (if isUnset d.companyId then [.companyId] else []) ++
  (if isUnset d.companyName then [.companyName] else []) ++
  (if isUnset d.deviceId then [.deviceId] else []) ++
  (if isUnset d.deviceName then [.deviceName] else []) ++
  (if isUnset d.isTemperature then [.isTemperature] else []) ++
  (if isUnset d.isHumidity then [.isHumidity] else []) ++
  (if isSourceUnset d.createdAt then [.createdAt] else []) ++
  (if isUnset d.value then [.value] else [])

/-- The value of a field by its coercion. -/
def take {α : Type} (field : Field) (coerce : Json → Except Mismatch α) : Option Json → Collected α
  | none => .error [⟨field, "", .required⟩]
  | some value => (coerce value).mapError fun mismatch => [⟨field, value.inspect, mismatch⟩]

/-- A source of a timestamp as messages show it. -/
def showSource : Timestamp.Source → String
  | .value v => v.inspect
  | .dateTime l => l.moment.toIso

/-- The timestamp of a draft at a reading of the clock; beyond the calendar there is no result at
all. -/
def takeTimestamp (now : Timestamp) :
    Option Timestamp.Source → Except Timestamp.RangeError (Collected Timestamp)
  | none => .ok (.error [⟨.createdAt, "", .required⟩])
  | some source =>
    match Timestamp.ofSource now source with
    | .error e => .error e
    | .ok (.ok t) => .ok (.ok t)
    | .ok (.error refusal) =>
      let shown := showSource source
      .ok (.error [⟨.createdAt, shown, Coercion.mismatchOfRefusal shown refusal⟩])

/-- The fields of a draft, coerced each on its own. -/
def collect (d : Draft) (createdAt : Collected Timestamp) : Collected Reading :=
  let company := (take .companyId Coercion.integer d.companyId).both
    (take .companyName Coercion.name d.companyName)
  let device := (take .deviceId Coercion.integer d.deviceId).both
    (take .deviceName Coercion.name d.deviceName)
  let flags := (take .isTemperature Coercion.boolean d.isTemperature).both
    (take .isHumidity Coercion.boolean d.isHumidity)
  let measured := createdAt.both (take .value Coercion.finiteNumber d.value)
  match (company.both device).both (flags.both measured) with
  | .error rejections => .error rejections
  | .ok (((companyId, companyName), (deviceId, deviceName)),
      ((isTemperature, isHumidity), (createdAt, value))) =>
    .ok { companyId, companyName, deviceId, deviceName, isTemperature, isHumidity, createdAt,
          value := value.1, value_isFinite := value.2 }

/-- Why a draft is no reading. -/
inductive Failure where
  | rejected (rejections : List Rejection)
  | outOfRange (error : Timestamp.RangeError)

/-- The reading of a draft at a reading of the clock. -/
def read (d : Draft) (now : Timestamp) : Except Failure Reading :=
  match takeTimestamp now d.createdAt with
  | .error e => .error (.outOfRange e)
  | .ok createdAt => (d.collect createdAt).mapError .rejected

end Draft

/-- The draft that holds the fields of a reading. -/
def toDraft (r : Reading) : Draft where
  companyId := some (.int r.companyId)
  companyName := some (.string r.companyName)
  deviceId := some (.int r.deviceId)
  deviceName := some (.string r.deviceName)
  isTemperature := some (.bool r.isTemperature)
  isHumidity := some (.bool r.isHumidity)
  createdAt := some (.dateTime ⟨r.createdAt, none⟩)
  value := some (.float r.value)

/-- A timestamp with its parts in parentheses; seconds and microseconds are left out from the right
while they are zero. -/
def describeTimestamp (t : Timestamp) : String :=
  let date := t.date
  let clock := t.clock
  let seconds := if clock.second = 0 && clock.micro = 0 then [] else [clock.second]
  let micros := if clock.micro = 0 then [] else [clock.micro]
  let parts := [date.year, date.month, date.day, clock.hour, clock.minute] ++ seconds ++ micros
  "datetime.datetime(" ++ ", ".intercalate (parts.map toString) ++ ")"

/-- The fields of a reading in one line, for the log. -/
def describe (r : Reading) : String :=
  let part (field : Field) (shown : String) := field.key ++ "=" ++ shown
  " ".intercalate [
    part .companyId (toString r.companyId),
    part .companyName (Text.quote r.companyName),
    part .deviceId (toString r.deviceId),
    part .deviceName (Text.quote r.deviceName),
    part .isTemperature (Json.bool r.isTemperature).inspect,
    part .isHumidity (Json.bool r.isHumidity).inspect,
    part .createdAt (describeTimestamp r.createdAt),
    part .value (Json.float r.value).inspect]

end Reading

end FeedMerge
