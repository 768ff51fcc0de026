/-!
# Dates of the Gregorian calendar

Days are numbered from 1 January of year 1, which is day 0 and a Monday; the last day is 31 December
of year 9999. `Date.dayNumber` and `Date.ofDayNumber` convert between a day and its year, month and
day of the month.
-/

namespace FeedMerge.Calendar

def isLeap (year : Nat) : Bool :=
  year % 4 = 0 && (year % 100 ≠ 0 || year % 400 = 0)

/-- The days of all years before a year. -/
def daysBeforeYear (year : Nat) : Nat :=
  let past := year - 1
  365 * past + past / 4 - past / 100 + past / 400

def monthLengths (leap : Bool) : List Nat :=
  [31, if leap then 29 else 28, 31, 30, 31, 30, 31, 31, 30, 31, 30, 31]

/-- The length of a month, counted from 1; there are no days in a month that does not exist. -/
def daysInMonth (year month : Nat) : Nat :=
  if month = 0 then 0 else ((monthLengths (isLeap year))[month - 1]?).getD 0

/-- The days of a year before a month. -/
def daysBeforeMonth (leap : Bool) (month : Nat) : Nat :=
  ((monthLengths leap).take (month - 1)).foldl (· + ·) 0

/-- The number of days from 1 January of year 1 to 31 December of year 9999. -/
def dayCount : Nat := 3652059

structure Date where
  year : Nat
  month : Nat
  day : Nat
  deriving DecidableEq, Repr

/-- Dates that exist, in years that are covered. -/
def Date.IsValid (d : Date) : Prop :=
  1 ≤ d.year ∧ d.year ≤ 9999 ∧ 1 ≤ d.day ∧ d.day ≤ daysInMonth d.year d.month

instance (d : Date) : Decidable d.IsValid :=
  inferInstanceAs (Decidable (_ ∧ _ ∧ _ ∧ _))

def Date.dayNumber (d : Date) : Nat :=
  daysBeforeYear d.year + daysBeforeMonth (isLeap d.year) d.month + (d.day - 1)

/-- The number of a date, if it exists. -/
def Date.dayNumber? (d : Date) : Option Nat := if d.IsValid then some d.dayNumber else none

/-- The month and the day of the month of a day of the year, counted from 0; `month` is the number
of the first length in the list. -/
def monthAndDay (month : Nat) : List Nat → Nat → Nat × Nat
  | [], day => (month, day + 1)
  | length :: lengths, day =>
    if day < length then (month, day + 1) else monthAndDay (month + 1) lengths (day - length)

/-- The year of a day and the day of that year, counted from 0. Cycles of 400, 100, 4 years and
single years are taken off in turn; the last day of a cycle of 4 or 400 years would begin one year
too many and is the last of the year before. -/
def yearAndDay (number : Nat) : Nat × Nat :=
  let centuries := number % 146097
  let years := centuries % 36524
  let rest := years % 1461
  let year := number / 146097 * 400 + centuries / 36524 * 100 + years / 1461 * 4 + rest / 365
  if centuries / 36524 = 4 || rest / 365 = 4 then (year, 365) else (year + 1, rest % 365)

def Date.ofDayNumber (number : Nat) : Date :=
  let (year, dayOfYear) := yearAndDay number
  let (month, day) := monthAndDay 1 (monthLengths (isLeap year)) dayOfYear
  ⟨year, month, day⟩

/-- The day of the week, from 0 for Monday to 6 for Sunday. -/
def weekday (number : Nat) : Nat := number % 7

/-- The Monday of the first week of a year, the one that holds 4 January; it may lie in the year
before. -/
def firstMonday (year : Nat) : Int :=
  let first := daysBeforeYear year
  if weekday first ≤ 3 then (first : Int) - weekday first else (first : Int) + 7 - weekday first

/-- A year has 53 weeks if it begins on a Thursday, or is a leap year and begins on a Wednesday. -/
def weeksInYear (year : Nat) : Nat :=
  let start := weekday (daysBeforeYear year)
  if start = 3 || (start = 2 && isLeap year) then 53 else 52

/-- The day of a week date, if the week exists and the day is covered; Monday is day 1. -/
def dayOfWeekDate? (year week day : Nat) : Option Nat :=
  if year = 0 || week = 0 || weeksInYear year < week || day = 0 || 7 < day then none
  else
    let number := firstMonday year + 7 * (week - 1 : Nat) + (day - 1 : Nat)
    if 0 ≤ number && number < dayCount then some number.toNat else none

end FeedMerge.Calendar
