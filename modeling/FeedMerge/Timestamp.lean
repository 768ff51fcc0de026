import FeedMerge.Calendar

/-!
# Timestamps

A timestamp is a moment of the Gregorian calendar in UTC, to the microsecond, from the start of year
1 to the end of year 9999. It is held as the number of microseconds since the start of year 1, so
that order and distance of timestamps are those of numbers. `toIso` writes it as
`2024-01-01T00:00:00`, followed by six digits of microseconds unless they are zero.
-/

namespace FeedMerge

/-- Microseconds in a day. -/
def microsPerDay : Nat := 86400000000

structure Timestamp where
  micros : Nat
  isCovered : micros < Calendar.dayCount * microsPerDay
  deriving DecidableEq

namespace Timestamp

/-- The start of year 1. -/
def start : Timestamp := ⟨0, by decide⟩

instance : LE Timestamp := ⟨fun a b => a.micros ≤ b.micros⟩

instance (a b : Timestamp) : Decidable (a ≤ b) :=
  inferInstanceAs (Decidable (a.micros ≤ b.micros))

def earlier (a b : Timestamp) : Timestamp := if a ≤ b then a else b

def later (a b : Timestamp) : Timestamp := if a ≤ b then b else a

/-- The timestamp that many microseconds after the start of year 1, if it is covered. -/
def ofMicros? (micros : Int) : Option Timestamp :=
  if h : 0 ≤ micros ∧ micros < (Calendar.dayCount * microsPerDay : Nat) then
    some ⟨micros.toNat, by omega⟩
  else none

/-- A time of day. -/
structure Clock where
  hour : Nat
  minute : Nat
  second : Nat
  micro : Nat
  deriving DecidableEq, Repr

def Clock.midnight : Clock := ⟨0, 0, 0, 0⟩

def Clock.IsValid (c : Clock) : Prop :=
  c.hour < 24 ∧ c.minute < 60 ∧ c.second < 60 ∧ c.micro < 1000000

instance (c : Clock) : Decidable c.IsValid :=
  inferInstanceAs (Decidable (_ ∧ _ ∧ _ ∧ _))

/-- The microseconds of a clock, as a duration. -/
def Clock.micros (c : Clock) : Nat :=
  ((c.hour * 60 + c.minute) * 60 + c.second) * 1000000 + c.micro

/-- The clock that many microseconds after midnight. -/
def Clock.ofMicros (micros : Nat) : Clock :=
  ⟨micros / 3600000000, micros / 60000000 % 60, micros / 1000000 % 60, micros % 1000000⟩

/-- The timestamp of a day and a time of day. -/
def ofDay? (day : Nat) (clock : Clock) : Option Timestamp :=
  if clock.IsValid then ofMicros? (day * microsPerDay + clock.micros : Nat) else none

def date (t : Timestamp) : Calendar.Date := .ofDayNumber (t.micros / microsPerDay)

def clock (t : Timestamp) : Clock := .ofMicros (t.micros % microsPerDay)

/-- A number with at least that many digits. -/
def padded (width n : Nat) : List Char :=
  let digits := Nat.toDigits 10 n
  List.replicate (width - digits.length) '0' ++ digits

/-- The text in the form of ISO 8601. -/
def toIso (t : Timestamp) : String :=
  let date := t.date
  let clock := t.clock
  let fraction := if clock.micro = 0 then [] else '.' :: padded 6 clock.micro
  .ofList (padded 4 date.year ++ '-' :: padded 2 date.month ++ '-' :: padded 2 date.day ++
    'T' :: padded 2 clock.hour ++ ':' :: padded 2 clock.minute ++ ':' :: padded 2 clock.second ++
    fraction)

/-- A date-time as it is written: local time, and the offset from UTC in microseconds if it is told.
-/
structure Local where
  moment : Timestamp
  offset : Option Int
  deriving DecidableEq

/-- The moment in UTC, if it is covered; without an offset the local time is taken for UTC. -/
def Local.toUtc? (l : Local) : Option Timestamp :=
  ofMicros? (l.moment.micros - l.offset.getD 0)

/-- The text of an offset: its sign, hours and minutes, or `Z` if it is none to the second. -/
def offsetText (offset : Int) : String :=
  let seconds := (offset.natAbs + 500000) / 1000000
  let sign := if offset < 0 then '-' else '+'
  if seconds = 0 then "Z"
  else .ofList (sign :: padded 2 (seconds / 3600) ++ ':' :: padded 2 (seconds / 60 % 60))

/-- The text in the form of ISO 8601, with the offset if it is told. -/
def Local.toIso (l : Local) : String :=
  match l.offset with
  | none => l.moment.toIso
  | some offset => l.moment.toIso ++ offsetText offset

end Timestamp

end FeedMerge
