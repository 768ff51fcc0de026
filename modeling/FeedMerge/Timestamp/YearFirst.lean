import FeedMerge.Timestamp.Fraction

/-!
# Date-times with the year first

A date-time is read from the year down to the fraction of the second, and may end behind any part.
The parts of the date stand together with two digits each, or have one separator between them,
either a hyphen, a point, a slash, a backslash or a space, and then one digit does as well. A `T` or
a space leads to the time, whose parts stand together or have colons between them. An offset from
UTC may follow, behind white space. A hyphen in front makes the year negative, and a text that does
not begin with four digits is of the year 0.
-/

namespace FeedMerge.Timestamp.YearFirst

/-- A date-time as it is written; the offset is in minutes. The year may be one that is not covered.
-/
structure Reading where
  year : Int
  month : Nat := 1
  day : Nat := 1
  clock : Clock := .midnight
  fraction : List Nat := []
  offset : Option Int := none

/-- White space in the narrow sense. -/
def isSpace (c : Char) : Bool := c = ' ' || (9 ≤ c.toNat && c.toNat ≤ 13)

def digit (c : Char) : Nat := c.toNat - '0'.toNat

/-- The number of one or two digits that a text begins with; a single one counts only if that is
allowed. -/
def number? (single : Bool) : List Char → Option (Nat × List Char)
  | a :: b :: rest =>
    if a.isDigit && b.isDigit then some (10 * digit a + digit b, rest)
    else if a.isDigit && single then some (digit a, b :: rest)
    else none
  | [a] => if a.isDigit && single then some (digit a, []) else none
  | [] => none

/-! ### Dates -/

/-- The year that a text begins with, without its sign. -/
def readYear (chars : List Char) : Nat × List Char :=
  let digits := chars.take 4
  if digits.length = 4 && digits.all Char.isDigit then
    (Text.valueOfDigits (digits.map digit), chars.drop 4)
  else (0, chars)

def isSeparator (c : Char) : Bool := ['-', '.', '/', '\\', ' '].contains c

/-- The day of a date in a month, where a separator may stand in front of it, and the text behind
it. Nothing needs to follow the month if there are separators. -/
def readDay? (year month : Nat) (separator : Option Char) :
    List Char → Option (Nat × List Char)
  | [] => if separator.isSome then some (1, []) else none
  | chars => do
    let chars ← match separator, chars with
      | none, chars => some chars
      | some separator, c :: rest => if c = separator then some rest else none
      | some _, [] => none
    let (day, rest) ← number? separator.isSome chars
    if 1 ≤ day && day ≤ Calendar.daysInMonth year month then some (day, rest) else none

/-- The month and the day of a date behind its year, and the text behind it. -/
def readMonthAndDay? (year : Nat) : List Char → Option (Nat × Nat × List Char)
  | [] => some (1, 1, [])
  | c :: rest => do
    let separator := if c.isDigit then none else some c
    if !c.isDigit && !isSeparator c then none
    else
      let (month, rest) ← number? separator.isSome (if c.isDigit then c :: rest else rest)
      if 1 ≤ month && month ≤ 12 then
        let (day, rest) ← readDay? year month separator rest
        pure (month, day, rest)
      else none

/-! ### Times -/

/-- The digits of a fraction that a text begins with, at most eighteen. -/
def readFraction : List Char → List Nat × List Char
  | '.' :: rest =>
    let digits := (rest.takeWhile Char.isDigit).take 18
    (digits.map digit, rest.drop digits.length)
  | rest => ([], rest)

/-- A part of the time that stands behind a colon, or behind nothing if the parts stand together,
and whether there is such a part. -/
def readPart? (colons : Bool) : List Char → Option (Option Nat × List Char)
  | ':' :: rest =>
    if colons then
      (number? true rest).bind fun (n, rest) => if n < 60 then some (some n, rest) else none
    else some (none, ':' :: rest)
  | c :: rest =>
    if !colons && c.isDigit then
      (number? false (c :: rest)).bind fun (n, rest) => if n < 60 then some (some n, rest) else none
    else some (none, c :: rest)
  | [] => some (none, [])

/-- A time, the digits of its fraction, and the text behind it. An hour of one digit needs minutes.
-/
def readClock? (chars : List Char) : Option (Clock × List Nat × List Char) := do
  let (hour, rest) ← number? true chars
  let colons := rest.head? = some ':'
  let short := !((chars.drop 1).head?.map Char.isDigit).getD false
  if 24 ≤ hour || (short && !colons) then none
  else
    match ← readPart? colons rest with
    | (none, rest) => pure (⟨hour, 0, 0, 0⟩, [], rest)
    | (some minute, rest) =>
      match ← readPart? colons rest with
      | (none, rest) => pure (⟨hour, minute, 0, 0⟩, [], rest)
      | (some second, rest) =>
        let (fraction, rest) := readFraction rest
        pure (⟨hour, minute, second, Fraction.micros fraction⟩, fraction, rest)

/-- The minutes of an offset, behind a colon or not. -/
def readOffsetMinutes? : List Char → Option (Nat × List Char)
  | [] => some (0, [])
  | ':' :: rest => number? true rest
  | rest => number? true rest

/-- The offset in minutes that a text is. -/
def readOffset? (chars : List Char) : Option (Option Int) :=
  match chars.dropWhile isSpace with
  | [] => some none
  | 'Z' :: rest => if rest.all isSpace then some (some 0) else none
  | sign :: rest =>
    if sign = '+' || sign = '-' then do
      let (hours, rest) ← number? true rest
      let (minutes, rest) ← readOffsetMinutes? rest
      if 24 ≤ hours || 60 ≤ minutes || !rest.all isSpace then none
      else
        let offset : Int := 60 * hours + minutes
        some (some (if sign = '-' then -offset else offset))
    else none

/-- The time behind a date, with the digits of its fraction and the offset. -/
def readTime? : List Char → Option (Clock × List Nat × Option Int)
  | [] => some (.midnight, [], none)
  | c :: rest => do
    if c = 'T' || c = ' ' then
      let (clock, fraction, rest) ← readClock? rest
      pure (clock, fraction, ← readOffset? rest)
    else none

/-- The date-time of a text. -/
def read? (chars : List Char) : Option Reading := do
  let negative := chars.head? = some '-'
  let unsigned := if negative then chars.tail else chars
  if unsigned.isEmpty then none
  else
    let (year, rest) := readYear unsigned
    let (month, day, rest) ← readMonthAndDay? year rest
    let (clock, fraction, offset) ← readTime? rest
    let year : Int := if negative then -year else year
    pure { year, month, day, clock, fraction, offset }

/-- The date-time of a reading whose year is covered. -/
def Reading.toLocal? (r : Reading) : Option Local := do
  let day ← (Calendar.Date.mk r.year.toNat r.month r.day).dayNumber?
  let moment ← ofDay? day r.clock
  pure ⟨moment, r.offset.map (· * 60000000)⟩

end FeedMerge.Timestamp.YearFirst
