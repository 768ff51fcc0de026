import FeedMerge.Calendar
import FeedMerge.Timestamp.Informal.Token

/-!
# The numbers of a date

A date is written as up to three numbers in an order that the text need not tell. `DayNumbers` holds
them as they come, with the place of the one that is known to be the year, since it has more than
two digits or exceeds 100, and of the one that is a month by its name. `resolve?` settles the rest:
a number above 31 is a year, and of the others the month comes first, the day second and the year
last, unless a first number above 12 can only be the day.

Years below 100 lie within half a century of the present year, unless the text tells their century.
-/

namespace FeedMerge.Timestamp.Informal

structure DayNumbers where
  numbers : List Nat := []
  yearAt : Option Nat := none
  monthAt : Option Nat := none
  deriving Repr

/-- The parts of a date, as far as they are told. -/
structure DayParts where
  year : Option Nat := none
  month : Option Nat := none
  day : Option Nat := none
  deriving DecidableEq, Repr

namespace DayNumbers

def size (d : DayNumbers) : Nat := d.numbers.length

/-- The numbers with one more that may be any part of the date. -/
def add (d : DayNumbers) (n : Nat) : DayNumbers := { d with numbers := d.numbers ++ [n] }

/-- The numbers with one more that is the year, if that was not told yet. -/
def addYear? (d : DayNumbers) (n : Nat) : Option DayNumbers :=
  match d.yearAt with
  | some _ => none
  | none => some { d.add n with yearAt := some d.size }

/-- The numbers with one more that is the month, if that was not told yet. -/
def addMonth? (d : DayNumbers) (n : Nat) : Option DayNumbers :=
  match d.monthAt with
  | some _ => none
  | none => some { d.add n with monthAt := some d.size }

/-- The numbers with a run of digits, of which more than two tell a year. -/
def addDigits? (d : DayNumbers) (digits : List Nat) : Option DayNumbers :=
  let n := Text.valueOfDigits digits
  if 2 < digits.length then d.addYear? n else some (d.add n)

/-- The numbers with a numeral that is written without a point. -/
def addPlain? (d : DayNumbers) (n : Numeral) : Option DayNumbers :=
  if n.fraction.isEmpty then d.addDigits? n.whole else none

/-- The numbers with the whole part of a numeral, which is a year if the numeral exceeds 100. -/
def addValue? (d : DayNumbers) (n : Numeral) : Option DayNumbers :=
  if 100 < n.floor || (n.floor = 100 && n.isBroken) then d.addYear? n.floor
  else some (d.add n.floor)

/-- The number at a place. -/
def at? (d : DayNumbers) (place : Option Nat) : Option Nat := place.bind (d.numbers[·]?)

/-- The most days that the month can have: it may be any month, and the year a leap year, as long as
they are not told. -/
def daysAtMost (d : DayNumbers) : Nat :=
  match d.at? d.monthAt with
  | none => 31
  | some month => Calendar.daysInMonth ((d.at? d.yearAt).getD 2000) month

/-- Whether a numeral can be the day. -/
def admitsDay (d : DayNumbers) (n : Numeral) : Bool :=
  1 ≤ n.floor && (n.floor < d.daysAtMost || (n.floor = d.daysAtMost && !n.isBroken))

/-- The two numbers that are not at a place, in their order. -/
def besides (d : DayNumbers) (place : Nat) : List Nat := d.numbers.eraseIdx place

/-- The parts of a date whose year and month are told and whose day is the third number, if there
is one. -/
def resolveTold (d : DayNumbers) (yearAt monthAt : Nat) : DayParts where
  year := d.numbers[yearAt]?
  month := d.numbers[monthAt]?
  day := ((List.range d.size).filter fun place => place ≠ yearAt && place ≠ monthAt).head?.bind
    (d.numbers[·]?)

/-- The parts of a date of one number that is no month by its name. -/
def resolveOne (n : Nat) : DayParts := if 31 < n then { year := some n } else { day := some n }

/-- The parts of a date of two numbers that are no months by their names. -/
def resolveTwo (first second : Nat) : DayParts :=
  if 31 < first then { year := some first, month := some second }
  else if 31 < second then { year := some second, month := some first }
  else { month := some first, day := some second }

/-- The parts of a date that has its month by name at a place, and two other numbers. -/
def resolveNamed (monthAt month first second : Nat) : DayParts :=
  let yearFirst : DayParts := ⟨some first, some month, some second⟩
  let dayFirst : DayParts := ⟨some second, some month, some first⟩
  match monthAt with
  | 0 => if 31 < first then yearFirst else dayFirst
  | 1 => if 31 < first then yearFirst else dayFirst
  | _ => if 31 < second then dayFirst else yearFirst

/-- The parts of a date of three numbers that are no months by their names. -/
def resolveThree (yearLeads : Bool) (first second third : Nat) : DayParts :=
  if yearLeads || 31 < first then ⟨some first, some second, some third⟩
  else if 12 < first then ⟨some third, some second, some first⟩
  else ⟨some third, some first, some second⟩

/-- The parts of the date, unless there are too many numbers. -/
def resolve? (d : DayNumbers) : Option DayParts :=
  match d.yearAt, d.monthAt, d.numbers with
  | _, _, [] => some {}
  | some yearAt, some monthAt, numbers =>
    if numbers.length ≤ 3 then some (d.resolveTold yearAt monthAt) else none
  | some _, none, [n] => some { year := some n }
  | none, some _, [n] => some { month := some n }
  | none, none, [n] => some (resolveOne n)
  | none, some monthAt, [_, _] =>
    match d.numbers[monthAt]?, d.besides monthAt with
    | some month, [other] => some { resolveOne other with month := some month }
    | _, _ => none
  | _, none, [first, second] => some (resolveTwo first second)
  | none, some monthAt, [_, _, _] =>
    match d.numbers[monthAt]?, d.besides monthAt with
    | some month, [first, second] => some (resolveNamed monthAt month first second)
    | _, _ => none
  | yearAt, none, [first, second, third] =>
    some (resolveThree (yearAt = some 0) first second third)
  | _, _, _ => none

end DayNumbers

/-- The year with these last two digits that is at most 50 years before the present one, and less
than 50 years after it. -/
def yearOfTwoDigits (present n : Nat) : Nat :=
  let year := present / 100 * 100 + n
  if present + 50 ≤ year then year - 100
  else if year + 50 < present then year + 100
  else year

/-- The year that a number stands for in the present year. -/
def yearOfNumber (present : Nat) (centuryTold : Bool) (n : Nat) : Nat :=
  if n < 100 && !centuryTold then yearOfTwoDigits present n else n

end FeedMerge.Timestamp.Informal
