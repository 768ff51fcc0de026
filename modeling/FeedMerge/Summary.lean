import FeedMerge.Checked
import FeedMerge.Reading

/-!
# Summaries

A summary tells of one device of one company when it was read first and last, and for temperature
and humidity how many readings there were and their average. `Summary.ofReadings` folds readings
into summaries in one pass: a device is placed where it first occurs and keeps the names of its
first reading. Averages are compensated sums divided by the count, so that the order of the readings
decides their last digits; there is no average of no readings.

Ids may be of any size as long as they are kept in words of 64 bits, all signed or all unsigned. The
first id that does not fit must still have a finite double next to it, or there are no summaries;
behind it everything fits.
-/

namespace FeedMerge

structure Summary where
  companyId : Int
  companyName : String
  deviceId : Int
  deviceName : String
  firstReadingAt : Timestamp.Local
  lastReadingAt : Timestamp.Local
  temperatureCount : Int
  averageTemperature : Option Float
  humidityCount : Int
  averageHumidity : Option Float
  deriving DecidableEq

/-! ### Averages -/

/-- A running sum with the rounding error that it still owes. -/
structure CompensatedSum where
  sum : Float
  carry : Float
  deriving DecidableEq

namespace CompensatedSum

def zero : CompensatedSum := ⟨0.0, 0.0⟩

/-- The sum with one more value; an error that is not a number is forgotten. -/
def add (s : CompensatedSum) (value : Float) : CompensatedSum :=
  let corrected := value - s.carry
  let sum := s.sum + corrected
  let carry := sum - s.sum - corrected
  ⟨sum, if carry.isNaN then 0.0 else carry⟩

end CompensatedSum

/-- How many values there were, and their sum. -/
structure Channel where
  count : Nat
  total : CompensatedSum
  deriving DecidableEq

namespace Channel

def empty : Channel := ⟨0, .zero⟩

def add (c : Channel) (value : Float) : Channel := ⟨c.count + 1, c.total.add value⟩

/-- The channel with the value of a reading, if it counts. -/
def addIf (c : Channel) (counts : Bool) (value : Float) : Channel :=
  if counts then c.add value else c

/-- The average, if there were values and it is a number. -/
def average? (c : Channel) : Option Float :=
  if c.count = 0 then none
  else
    let average := c.total.sum / Float.ofNat c.count
    if average.isNaN then none else some average

/-- The channel of a list of values. -/
def ofValues (values : List Float) : Channel := values.foldl add empty

end Channel

/-! ### Devices -/

/-- A device of a company. -/
structure Device where
  companyId : Int
  deviceId : Int
  deriving DecidableEq, Repr

def Reading.device (r : Reading) : Device := ⟨r.companyId, r.deviceId⟩

def Summary.device (s : Summary) : Device := ⟨s.companyId, s.deviceId⟩

/-- What is known of a device after some of its readings. -/
structure Tally where
  device : Device
  companyName : String
  deviceName : String
  first : Timestamp
  last : Timestamp
  temperature : Channel
  humidity : Channel

namespace Tally

/-- The tally of the first reading of a device. -/
def start (r : Reading) : Tally where
  device := r.device
  companyName := r.companyName
  deviceName := r.deviceName
  first := r.createdAt
  last := r.createdAt
  temperature := Channel.empty.addIf r.isTemperature r.value
  humidity := Channel.empty.addIf r.isHumidity r.value

/-- The tally with one more reading of the device. -/
def add (t : Tally) (r : Reading) : Tally :=
  { t with
    first := t.first.earlier r.createdAt
    last := t.last.later r.createdAt
    temperature := t.temperature.addIf r.isTemperature r.value
    humidity := t.humidity.addIf r.isHumidity r.value }

/-- The tallies with one more reading: in the tally of its device, or in a new one at the end. -/
def insert : List Tally → Reading → List Tally
  | [], r => [start r]
  | t :: rest, r => if t.device = r.device then t.add r :: rest else t :: insert rest r

def summary (t : Tally) : Summary where
  companyId := t.device.companyId
  companyName := t.companyName
  deviceId := t.device.deviceId
  deviceName := t.deviceName
  firstReadingAt := ⟨t.first, none⟩
  lastReadingAt := ⟨t.last, none⟩
  temperatureCount := t.temperature.count
  averageTemperature := t.temperature.average?
  humidityCount := t.humidity.count
  averageHumidity := t.humidity.average?

end Tally

namespace Summary

/-! ### The size of ids -/

/-- Why readings have no summaries. -/
inductive SizeError where
  | idTooLarge
  deriving DecidableEq, Repr

def SizeError.message : SizeError → String
  | .idTooLarge => "int too large to convert to float"

/-- The first id that does not fit words of 64 bits together with the ids before it, of which some
may be negative and some beyond the signed words. -/
def firstUnfit? (negative large : Bool) : List Int → Option Int
  | [] => none
  | id :: rest =>
    let negative := negative || id < 0
    let large := large || Coercion.wordEnd ≤ id
    let fits := -Coercion.wordEnd ≤ id && id < 2 * Coercion.wordEnd && !(negative && large)
    if fits then firstUnfit? negative large rest else some id

/-- Whether ids can be kept. -/
def areKept (ids : List Int) : Bool :=
  (firstUnfit? false false ids).all fun id => (Coercion.floatOfInt id).isFinite

/-! ### From readings -/

/-- The summaries of some readings, one for each device. -/
def ofReadings (readings : List Reading) : Except SizeError (List Summary) :=
  if areKept (readings.map (·.companyId)) && areKept (readings.map (·.deviceId)) then
    .ok ((readings.foldl Tally.insert []).map Tally.summary)
  else .error .idTooLarge

/-! ### Summaries as JSON -/

def averageJson : Option Float → Json
  | none => .null
  | some x => .float x

def toFields (s : Summary) : Fields :=
  [("CompanyId", .int s.companyId),
    ("CompanyName", .string s.companyName),
    ("DeviceId", .int s.deviceId),
    ("DeviceName", .string s.deviceName),
    ("FirstReadingDtm", .string s.firstReadingAt.toIso),
    ("LastReadingDtm", .string s.lastReadingAt.toIso),
    ("TemperatureCount", .int s.temperatureCount),
    ("AverageTemperature", averageJson s.averageTemperature),
    ("HumidityCount", .int s.humidityCount),
    ("AverageHumidity", averageJson s.averageHumidity)]

def toJson (s : Summary) : Json := .object s.toFields

/-- A field that refuses its value, under the name that it was found by. -/
structure Rejection where
  name : String
  mismatch : Mismatch
  deriving DecidableEq, Repr

def Rejection.message (r : Rejection) : String := s!"{r.name}: {r.mismatch.message}"

/-- A field under its name in JSON or, failing that, its key. -/
def take {α : Type} (fields : Fields) (name key : String) (absent : Checked Rejection α)
    (coerce : Json → Except Mismatch α) : Checked Rejection α :=
  match fields.find? name, fields.find? key with
  | some value, _ => (coerce value).mapError fun mismatch => [⟨name, mismatch⟩]
  | none, some value => (coerce value).mapError fun mismatch => [⟨key, mismatch⟩]
  | none, none => absent

/-- An average, which may be null, infinite or not a number. -/
def averageOfJson : Json → Except Mismatch (Option Float)
  | .null => .ok none
  | value => (Coercion.number value).map some

/-- A date-time in the form of ISO 8601, which keeps its offset. -/
def dateTimeOfJson (value : Json) : Except Mismatch Timestamp.Local :=
  match value with
  | .string s =>
    match Timestamp.Iso.read? (Timestamp.Iso.expandZulu s.toList) with
    | some l => .ok l
    | none => .error (.notTimestamp value.inspect)
  | _ => .error (.notTimestamp value.inspect)

/-- The summary that some named values make up. -/
def ofFields (fields : Fields) : Checked Rejection Summary :=
  let needed {α : Type} (name key : String) (coerce : Json → Except Mismatch α) :
      Checked Rejection α :=
    take fields name key (.error [⟨name, .required⟩]) coerce
  let average (name key : String) := take fields name key (.ok none) averageOfJson
  let company := (needed "CompanyId" "company_id" Coercion.integer).both
    (needed "CompanyName" "company_name" Coercion.text)
  let device := (needed "DeviceId" "device_id" Coercion.integer).both
    (needed "DeviceName" "device_name" Coercion.text)
  let span := (needed "FirstReadingDtm" "first_reading_at" dateTimeOfJson).both
    (needed "LastReadingDtm" "last_reading_at" dateTimeOfJson)
  let temperature := (needed "TemperatureCount" "temperature_count" Coercion.integer).both
    (average "AverageTemperature" "average_temperature")
  let humidity := (needed "HumidityCount" "humidity_count" Coercion.integer).both
    (average "AverageHumidity" "average_humidity")
  ((company.both device).both (span.both (temperature.both humidity))).map
    fun (((companyId, companyName), (deviceId, deviceName)), ((firstReadingAt, lastReadingAt),
        ((temperatureCount, averageTemperature), (humidityCount, averageHumidity)))) =>
      { companyId, companyName, deviceId, deviceName, firstReadingAt, lastReadingAt,
        temperatureCount, averageTemperature, humidityCount, averageHumidity }

end Summary

end FeedMerge
