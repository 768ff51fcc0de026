import FeedMerge.Decimal
import FeedMerge.Timestamp

/-!
# Reading ISO 8601

A date-time in the form of ISO 8601 is a date, one separator of any kind, and a time that may have
an offset from UTC. Dates are calendar dates or week dates, in the extended form with hyphens or the
basic one without; times drop their parts from the right, and have a fraction of any length, of
which six digits count. The form of the date tells where the separator stands.

Before an offset a time may be followed by one more ASCII character, or by anything after six digits
of a fraction; a NUL ends the text.
-/

namespace FeedMerge.Timestamp.Iso

/-- The number of the two digits that a text begins with. -/
def twoDigits? : List Char → Option (Nat × List Char)
  | a :: b :: rest => if a.isDigit && b.isDigit then some (Decimal.ofDigits [a, b], rest) else none
  | _ => none

/-- The number of the four digits that a text begins with. -/
def fourDigits? (chars : List Char) : Option (Nat × List Char) := do
  let (high, rest) ← twoDigits? chars
  let (low, rest) ← twoDigits? rest
  pure (100 * high + low, rest)

/-! ### Dates -/

/-- Where a week date in the basic form ends. Times have pairs of digits, so an odd number of digits
behind the week tells that the first is the day. -/
def basicWeekLength (chars : List Char) : Nat :=
  let digits := ((chars.drop 7).takeWhile Char.isDigit).length
  if digits < 2 then 7 + digits else if digits % 2 = 1 then 7 else 8

/-- How many characters of a date-time are its date. -/
def dateLength? (chars : List Char) : Option Nat :=
  if chars.length < 7 then none
  else if chars.length = 7 then some 7
  else if chars[4]? = some '-' then
    if chars[5]? = some 'W' then
      if chars[8]? = some '-' then
        if chars.length = 9 then none
        else if ((chars[10]?).map Char.isDigit).getD false then some 8
        else some 10
      else some 8
    else some 10
  else if chars[4]? = some 'W' then some (basicWeekLength chars)
  else some 8

/-- The day of a week date behind its `W`. -/
def readWeek? (year : Nat) (extended : Bool) (chars : List Char) : Option Nat := do
  let (week, rest) ← twoDigits? chars
  match extended, rest with
  | _, [] => Calendar.dayOfWeekDate? year week 1
  | true, ['-', day] =>
    if day.isDigit then Calendar.dayOfWeekDate? year week (Decimal.ofDigits [day]) else none
  | false, [day] =>
    if day.isDigit then Calendar.dayOfWeekDate? year week (Decimal.ofDigits [day]) else none
  | _, _ => none

/-- The day that a date stands for. -/
def readDate? (chars : List Char) : Option Nat := do
  let (year, rest) ← fourDigits? chars
  match rest with
  | '-' :: 'W' :: rest => readWeek? year true rest
  | 'W' :: rest => readWeek? year false rest
  | '-' :: rest =>
    let (month, rest) ← twoDigits? rest
    match rest with
    | '-' :: rest =>
      match twoDigits? rest with
      | some (day, []) => (Calendar.Date.mk year month day).dayNumber?
      | _ => none
    | _ => none
  | _ =>
    let (month, rest) ← twoDigits? rest
    match twoDigits? rest with
    | some (day, []) => (Calendar.Date.mk year month day).dayNumber?
    | _ => none

/-! ### Times -/

/-- A time as it is written, with whether the text ends behind it. -/
structure Reading where
  clock : Clock
  complete : Bool

/-- Whether a text ends here; a NUL ends it too. -/
def isEnd : List Char → Bool
  | [] => true
  | c :: _ => c = '\x00'

/-- The microseconds of a fraction, of which six digits count. -/
def readFraction? (chars : List Char) : Option (Nat × Bool) :=
  let digits := chars.take 6
  if digits.all Char.isDigit then
    some (Decimal.ofDigits digits * Nat.pow 10 (6 - digits.length),
      isEnd (chars.dropWhile Char.isDigit))
  else none

/-- Up to `count` parts of two digits, then a fraction; the first character behind a part tells
whether colons separate them. -/
def readParts? (colons : Option Bool) : Nat → List Char → Option (List Nat × Nat × Bool)
  | 0, chars => (readFraction? chars).map fun (micro, complete) => ([], micro, complete)
  | count + 1, chars =>
    match twoDigits? chars with
    | none => none
    | some (part, []) => some ([part], 0, true)
    | some (part, [c]) => if c.toNat < 128 then some ([part], 0, isEnd [c]) else none
    | some (part, c :: rest) =>
      let separated := colons.getD (c = ':')
      if separated && c = ':' then
        (readParts? (some true) count rest).map fun (parts, result) => (part :: parts, result)
      else if c = '.' || c = ',' then
        (readFraction? rest).map fun (micro, complete) => ([part], micro, complete)
      else if separated then none
      else
        (readParts? (some false) count (c :: rest)).map fun (parts, result) =>
          (part :: parts, result)

/-- A time of up to three parts and a fraction. -/
def readClock? (chars : List Char) : Option Reading :=
  (readParts? none 3 chars).map fun (parts, micro, complete) =>
    ⟨⟨parts[0]?.getD 0, parts[1]?.getD 0, parts[2]?.getD 0, micro⟩, complete⟩

def isSign (c : Char) : Bool := c = '+' || c = '-'

/-- An offset of less than a second is none. -/
def offsetMicros (clock : Clock) : Nat := if clock.micros < 1000000 then 0 else clock.micros

/-- The offset behind its sign, in microseconds; it is less than a day. -/
def readOffset? (sign : Char) (chars : List Char) : Option Int :=
  match readClock? chars with
  | some ⟨clock, true⟩ =>
    let micros := offsetMicros clock
    if micros < microsPerDay then some (if sign = '-' then -(micros : Int) else micros) else none
  | _ => none

/-- A time of day and its offset, if there is one. -/
def readTime? (chars : List Char) : Option (Clock × Option Int) :=
  match readClock? (chars.takeWhile fun c => !isSign c), chars.dropWhile fun c => !isSign c with
  | some ⟨clock, complete⟩, [] => if complete then some (clock, none) else none
  | some ⟨clock, _⟩, sign :: offset =>
    (readOffset? sign offset).map fun offset => (clock, some offset)
  | none, _ => none

/-- A date-time; without a time it is midnight. -/
def read? (chars : List Char) : Option Local := do
  let length ← dateLength? chars
  let day ← readDate? (chars.take length)
  let (clock, offset) ← match chars.drop length with
    | [] => some (Clock.midnight, none)
    | _ :: time => readTime? time
  let moment ← ofDay? day clock
  pure ⟨moment, offset⟩

/-- A letter `Z` as the offset that it stands for. -/
def expandZulu (chars : List Char) : List Char :=
  chars.flatMap fun c => if c = 'Z' then ['+', '0', '0', ':', '0', '0'] else [c]

end FeedMerge.Timestamp.Iso
