import FeedMerge.Decimal
import FeedMerge.Timestamp.Informal

/-!
# Date-times by a pattern

A pattern tells for each piece of a text which parts of a date-time it writes, and in which form.
The pattern of a text is found from the date-time that it tells in everyday spelling, where the rest
is that of the present day: in a fixed order, each form looks for the first free piece that is what
it would write. A month can so be found in the hour if its own spelling is not the usual one, and
then nothing writes the hour; and a day that is not told is found in a piece that is the day of the
month by chance.

A pattern needs the year, the month and the day, and every number must be written by a form. What no
piece writes is zero, or no offset, whatever the everyday spelling tells.
-/

namespace FeedMerge.Timestamp.Pattern

/-! ### Pieces -/

/-- The classes of characters of which runs make pieces; every blank is a piece by itself. -/
inductive CharClass where
  | digit
  | letter
  | stop
  | blank
  | other
  deriving DecidableEq, Repr

def classOf (c : Char) : CharClass :=
  if Text.isDecimalDigit c then .digit
  else if c.isAlpha then .letter
  else if ['.', '/', ':'].contains c then .stop
  else if Text.isBlank c then .blank
  else .other

/-- Runs of characters with one more in front. -/
def prepend (c : Char) (runs : List (List Char)) : List (List Char) :=
  match runs with
  | (first :: run) :: more =>
    if classOf c = classOf first && classOf c ≠ .blank then (c :: first :: run) :: more
    else [c] :: runs
  | _ => [c] :: runs

def isDigits (piece : List Char) : Bool := piece.all Text.isDecimalDigit

/-- Runs of digits with a single point between them joined, unless a further point stands on either
side. -/
def joinFractions (behindPoint : Bool) : List (List Char) → List (List Char)
  | whole :: ['.'] :: decimals :: rest =>
    let beforePoint := (rest.head?.bind List.head?) = some '.'
    if isDigits whole && isDigits decimals && !behindPoint && !beforePoint then
      (whole ++ '.' :: decimals) :: joinFractions false rest
    else whole :: joinFractions (whole.getLast? = some '.') (['.'] :: decimals :: rest)
  | piece :: rest => piece :: joinFractions (piece.getLast? = some '.') rest
  | [] => []

/-- The pieces of a text. -/
def pieces (chars : List Char) : List (List Char) := joinFractions false (chars.foldr prepend [])

/-- Whether a comma alone stands between two runs of digits. -/
def hasDecimalComma : List (List Char) → Bool
  | [] => false
  | piece :: rest =>
    (match piece, rest with
      | _, [','] :: second :: _ => isDigits piece && isDigits second
      | _, _ => false) || hasDecimalComma rest

/-! ### Forms -/

/-- The parts of a date-time that a pattern can tell. -/
inductive Part where
  | year
  | month
  | day
  | hour
  | minute
  | second
  | fraction
  | offset
  | weekday
  | half
  deriving DecidableEq, Repr

/-- The forms in which parts are written, some of them several parts together. -/
inductive Form where
  | dateToSecond
  | dateToMinute
  | dateToHour
  | date
  | timeToSecond
  | timeToMinute
  | year
  | monthName
  | shortMonthName
  | month
  | day
  | hour
  | minute
  | second
  | secondWithFraction
  | offset
  | universalTime
  | shortWeekday
  | weekday
  | half
  deriving DecidableEq, Repr

namespace Form

/-- All forms in the order in which they look for their pieces. -/
def all : List Form :=
  [dateToSecond, dateToMinute, dateToHour, date, timeToSecond, timeToMinute, year, monthName,
    shortMonthName, month, day, hour, minute, second, secondWithFraction, offset, universalTime,
    shortWeekday, weekday, half]

def parts : Form → List Part
  | dateToSecond => [.year, .month, .day, .hour, .minute, .second]
  | dateToMinute => [.year, .month, .day, .hour, .minute]
  | dateToHour => [.year, .month, .day, .hour]
  | date => [.year, .month, .day]
  | timeToSecond => [.hour, .minute, .second]
  | timeToMinute => [.hour, .minute]
  | year => [.year]
  | monthName => [.month]
  | shortMonthName => [.month]
  | month => [.month]
  | day => [.day]
  | hour => [.hour]
  | minute => [.minute]
  | second => [.second]
  | secondWithFraction => [.second, .fraction]
  | offset => [.offset]
  | universalTime => [.offset]
  | shortWeekday => [.weekday]
  | weekday => [.weekday]
  | half => [.half]

/-- A name with a capital. -/
def capitalize : List Char → List Char
  | [] => []
  | c :: rest => c.toUpper :: rest

/-- The name at a place of a list, with a capital. -/
def nameAt (names : List String) (place : Nat) : List Char :=
  capitalize (names[place]?.getD "").toList

/-- An offset with its sign, two digits of hours and two of minutes. -/
def writeOffset (micros : Int) : List Char :=
  let minutes := micros.natAbs / 60000000
  (if micros < 0 then '-' else '+') :: (padded 2 (minutes / 60) ++ padded 2 (minutes % 60))

/-- What a form writes for a date-time. -/
def write (l : Local) : Form → Option (List Char)
  | dateToSecond => some (date ++ time ++ padded 2 clock.second)
  | dateToMinute => some (date ++ time)
  | dateToHour => some (date ++ padded 2 clock.hour)
  | .date => some date
  | timeToSecond => some (time ++ padded 2 clock.second)
  | timeToMinute => some time
  | year => some (Nat.toDigits 10 day.year)
  | monthName => some (nameAt Informal.monthNames (day.month - 1))
  | shortMonthName => some ((nameAt Informal.monthNames (day.month - 1)).take 3)
  | month => some (padded 2 day.month)
  | .day => some (padded 2 day.day)
  | hour => some (padded 2 clock.hour)
  | minute => some (padded 2 clock.minute)
  | second => some (padded 2 clock.second)
  | secondWithFraction => some (padded 2 clock.second ++ '.' :: padded 6 clock.micro)
  | offset => l.offset.map writeOffset
  | universalTime => if l.offset = some 0 then some ['U', 'T', 'C'] else none
  | shortWeekday => some (weekdayName.take 3)
  | weekday => some weekdayName
  | half => some (if clock.hour < 12 then ['A', 'M'] else ['P', 'M'])
where
  day : Calendar.Date := l.moment.date
  clock : Clock := l.moment.clock
  date : List Char := Nat.toDigits 10 day.year ++ padded 2 day.month ++ padded 2 day.day
  time : List Char := padded 2 clock.hour ++ padded 2 clock.minute
  weekdayName : List Char :=
    nameAt Informal.weekdayNames (Calendar.weekday (l.moment.micros / microsPerDay))

/-- Whether a form pads a piece of one digit. -/
def isPadded : Form → Bool
  | month | .day | hour | minute | second => true
  | _ => false

/-- The digits of a piece with a fraction, the seconds with two digits and the fraction with six. -/
def fillFraction (piece : List Char) : List Char :=
  match Informal.Token.ofRun piece with
  | .numeral n =>
    let decimals := (piece.dropWhile (· ≠ '.')).tail
    if decimals.isEmpty then piece
    else padded 2 n.floor ++ '.' :: (decimals ++ List.replicate 6 '0').take 6
  | _ => piece

/-- A piece filled up to the width that a form writes. -/
def fill (form : Form) (piece : List Char) : List Char :=
  if form = secondWithFraction then fillFraction piece
  else if form.isPadded && piece.length = 1 then '0' :: piece
  else piece

/-- Whether a form reads a piece that is what it would write; years have four digits, hours that
count to twelve are no zeros, and fractions have at most nine digits. -/
def admits (form : Form) (hasHalf : Bool) (piece : List Char) : Bool :=
  match form with
  | year => piece.length = 4
  | hour => !hasHalf || (1 ≤ Decimal.ofDigits piece && Decimal.ofDigits piece ≤ 12)
  | secondWithFraction =>
    let whole := piece.takeWhile (· ≠ '.')
    piece.length ≤ whole.length + 10 &&
      (whole.length = 1 || (whole.length = 2 && (whole.head?.map Char.isDigit).getD false))
  | _ => true

end Form

/-! ### Patterns -/

/-- A piece of a text with the form that writes it, if there is one. -/
structure Slot where
  piece : List Char
  form : Option Form := none

/-- The slots with the first free one given to a form that would write its piece. -/
def claim? (form : Form) (written : List Char) : List Slot → Option (List Slot)
  | [] => none
  | slot :: rest =>
    if slot.form.isNone && form.fill slot.piece = written then
      some ({ slot with form := some form } :: rest)
    else (claim? form written rest).map (slot :: ·)

/-- The slots after a form took its piece, unless one of its parts was found before. -/
def claim (l : Local) (slots : List Slot × List Part) (form : Form) : List Slot × List Part :=
  if form.parts.any slots.2.contains then slots
  else
    match (form.write l).bind fun written => claim? form written slots.1 with
    | some claimed => (claimed, slots.2 ++ form.parts)
    | none => slots

/-- Where the offset of a text begins, if that can be told. -/
def offsetPlace? (pieces : List (List Char)) : Option Nat :=
  let isSign (back : Nat) : Bool :=
    back ≤ pieces.length &&
      (pieces[pieces.length - back]? = some ['+'] || pieces[pieces.length - back]? = some ['-'])
  if pieces.getLast? = some ['Z'] then some (pieces.length - 1)
  else if isSign 2 then some (pieces.length - 2)
  else if isSign 4 then some (pieces.length - 4)
  else none

/-- The offset in microseconds that a text is: `Z`, or a sign with two digits of hours and two of
minutes. -/
def readOffset? : List Char → Option Int
  | ['Z'] => some 0
  | sign :: rest => do
    let digits ← Informal.Token.digits? (rest.take 2 ++ (if rest[2]? = some ':' then rest.drop 3
      else rest.drop 2))
    let negative ← Informal.sign? (.mark sign)
    match digits with
    | [a, b, c, d] =>
      let minutes : Int := 60 * (10 * a + b) + (10 * c + d)
      if c < 6 then some ((if negative then -minutes else minutes) * 60000000) else none
    | _ => none
  | [] => none

/-- The slots of a text that tells a date-time, and the text of its offset if that was found. -/
def slotsOf (l : Local) (text : List Char) : List Slot × Option (List Char) :=
  let all := pieces text
  match l.offset, offsetPlace? all with
  | some offset, some place =>
    ((all.take place ++ [Form.writeOffset offset]).map ({ piece := · }), (all.drop place).flatten)
  | _, _ => (all.map ({ piece := · }), none)

/-- Whether all slots of a pattern can be read: those without a form hold no number. -/
def areReadable (slots : List Slot) (found : List Part) : Bool :=
  [Part.year, .month, .day].all found.contains && slots.all fun slot =>
    match slot.form with
    | some form => form.admits (found.contains .half) slot.piece
    | none => !(slot.piece.head?.map Text.isDecimalDigit).getD false

/-- A date-time with nothing but the parts that a pattern found. -/
def restrict? (s : Informal.Spelled) (found : List Part) (offset : Option Int) :
    Option Local := do
  let clock := s.moment.moment.clock
  let keep (part : Part) (n : Nat) := if found.contains part then n else 0
  let moment ← ofDay? (s.moment.moment.micros / microsPerDay)
    ⟨keep .hour clock.hour, keep .minute clock.minute, keep .second clock.second,
      keep .fraction clock.micro⟩
  let fraction := if found.contains .fraction then s.fraction else []
  if Fraction.isKept moment fraction then pure ⟨moment, offset⟩ else none

/-- The date-time of a text that has a pattern at this reading of the clock. -/
def read? (now : Timestamp) (text : List Char) : Option Local := do
  let s ← Informal.read? now.date.year .strict now.date text
  let (slots, offsetText) := slotsOf s.moment text
  let (slots, found) := Form.all.foldl (claim s.moment) (slots, [])
  if text.contains '\x00' || hasDecimalComma (pieces text) || !areReadable slots found then none
  else
    match offsetText with
    | some offsetText => restrict? s found (some (← readOffset? offsetText))
    | none => restrict? s found (if found.contains .offset then some 0 else none)

end FeedMerge.Timestamp.Pattern
