import FeedMerge.Decimal
import FeedMerge.Timestamp.Informal

/-!
# Days and periods by numbers

Short texts that are a date by their form alone, and stand for the first day of what they name:

* a day as `MM/DD/YYYY`, or `DD/MM/YYYY` if the first number exceeds 12, where the month and the day
  may have one digit each, and a month as `MM/YYYY`, with a slash, hyphen, point or space for each
  separator;
* a year of four characters, a quarter such as `2024Q1` or `1Q24`, and a month such as `Jan 2024` or
  `2024-01`.
-/

namespace FeedMerge.Timestamp.Period

/-! ### Days and months with separators -/

def isSeparator (c : Char) : Bool := [' ', '/', '-', '.'].contains c

/-- The parts of a text between its separators, of which there is one more than separators. -/
def fields : List Char → List (List Char)
  | [] => [[]]
  | c :: rest =>
    if isSeparator c then [] :: fields rest
    else
      match fields rest with
      | [] => [[c]]
      | field :: more => (c :: field) :: more

/-- The number of a field of so many digits. -/
def fieldNumber? (least most : Nat) (field : List Char) : Option Nat :=
  if field.all Char.isDigit && least ≤ field.length && field.length ≤ most then
    some (Decimal.ofDigits field)
  else none

/-- Whether two numbers can be a month and a day in some order. -/
def areMonthAndDay (a b : Nat) : Bool :=
  1 ≤ a && a ≤ 31 && 1 ≤ b && b ≤ 31 && (a ≤ 12 || b ≤ 12)

/-- The date of a text of this form; it need not exist. -/
def separated? (chars : List Char) : Option Calendar.Date :=
  match fields chars with
  | [first, second, year] => do
    let first ← fieldNumber? 1 2 first
    let second ← fieldNumber? 1 2 second
    let year ← fieldNumber? 4 4 year
    if year < 1000 then none
    else if areMonthAndDay first second && 12 < first then some ⟨year, second, first⟩
    else some ⟨year, first, second⟩
  | [month, year] => do
    let month ← fieldNumber? 2 2 month
    let year ← fieldNumber? 4 4 year
    if year < 1000 || chars.contains '.' then none else some ⟨year, month, 1⟩
  | _ => none

/-! ### Years, quarters and months by name -/

/-- The first day of a month, if it is covered. -/
def firstDay? (year : Int) (month : Nat) : Option Nat :=
  if 0 < year then (Calendar.Date.mk year.toNat month 1).dayNumber? else none

/-- The first day of a year of four characters. -/
def year? (chars : List Char) : Option Nat :=
  if chars.length = 4 then (Text.integer? chars).bind (firstDay? · 1) else none

/-- The year of two or four characters; two are a year of this century. -/
def quarterYear? (chars : List Char) : Option Int :=
  if chars.length = 2 then (Text.integer? chars).map (2000 + ·)
  else if chars.length = 4 then Text.integer? chars
  else none

/-- The year and the number of a quarter, with the letter between them or between a hyphen and one
of them. -/
def yearAndQuarter? (chars : List Char) : Option (Int × Int) :=
  let hyphened := chars.length = 5 || chars.length = 7
  let before := chars.takeWhile fun c => c ≠ 'Q' && c ≠ 'q'
  match before, chars.drop before.length with
  | [quarter], _ :: year => do
    let year := if hyphened && year.head? = some '-' then year.tail else year
    pure (← quarterYear? year, ← Text.integer? [quarter])
  | year, [_, quarter] => do
    let year := if hyphened && year.getLast? = some '-' then year.dropLast else year
    pure (← quarterYear? year, ← Text.integer? [quarter])
  | _, _ => none

/-- The first day of a month by its number, behind a year of four digits and a hyphen. -/
def numberedMonth? (chars : List Char) : Option Nat := do
  let digits ← Informal.Token.digits? (chars.take 4)
  match chars.drop 4 with
  | '-' :: month => do firstDay? (Text.valueOfDigits digits) (← fieldNumber? 1 2 month)
  | _ => none

/-- The first day of a month by the first three letters of its name, with a year of four digits
behind blanks. -/
def namedMonth? (chars : List Char) : Option Nat := do
  let month ← Informal.month? (.word (chars.take 3))
  let behind := chars.drop 3
  let digits ← Informal.Token.digits? (behind.dropWhile Text.isBlank)
  if digits.length = 4 && digits.length < behind.length then
    firstDay? (Text.valueOfDigits digits) month
  else none

/-- The first day of a month. -/
def month? (chars : List Char) : Option Nat := (numberedMonth? chars).or (namedMonth? chars)

/-- The day that a text of one of these forms stands for; `some none` is a form that stands for no
day. -/
def read? (chars : List Char) : Option (Option Nat) :=
  match separated? chars, year? chars with
  | some date, _ => some date.dayNumber?
  | none, some day => some (some day)
  | none, none =>
    match yearAndQuarter? chars with
    | some (year, quarter) =>
      if quarter < 1 || 4 < quarter then some none
      else
        match firstDay? year (3 * quarter.toNat - 2) with
        | some day => some (some day)
        | none => (month? chars).map some
    | none => (month? chars).map some

end FeedMerge.Timestamp.Period
