import FeedMerge.Timestamp.Pattern
import FeedMerge.Timestamp.Period
import FeedMerge.Timestamp.YearFirst

/-!
# Date-times in any spelling

A text that is not in the form of ISO 8601 may still be a date-time. Its own pattern is tried first,
then the form with the year first, then days and periods by numbers, and at last the everyday
spelling, with the first day of year 1 for what is not told. Numbers below 1000 are no date-times
unless they begin with a zero.

What some texts stand for is told by the clock: the words `now` and `today` are its reading, and a
text that begins like a time is one of the present day as far as it tells no other. The reading is
that of the clock on the wall where the program runs, which is taken to show UTC, and it is an
argument, so that what is said about a text holds at every time of day.

NULs at the end do not count. A year that is not covered is told apart from a text that is no
date-time.
-/

namespace FeedMerge.Timestamp

/-- Why a source gives no timestamp. -/
inductive Refusal where
  | noDateTime
  | yearOutOfRange (year : Int)
  deriving DecidableEq, Repr

namespace Spelling

/-- The text without the characters of a class at its end. -/
def dropBack (drops : Char → Bool) (chars : List Char) : List Char :=
  (chars.reverse.dropWhile drops).reverse

/-- Whether a text is a number below 1000 that does not begin with a zero; white space may follow.
-/
def isSmallNumber (chars : List Char) : Bool :=
  let chars := dropBack YearFirst.isSpace chars
  let unsigned := match chars with
    | '-' :: rest => rest
    | '+' :: rest => rest
    | rest => rest
  let whole := unsigned.takeWhile Char.isDigit
  let behind := unsigned.dropWhile Char.isDigit
  let isNumber := match behind with
    | [] => !whole.isEmpty
    | '.' :: decimals => decimals.all Char.isDigit && !(whole.isEmpty && decimals.isEmpty)
    | _ => false
  isNumber && chars.head? ≠ some '0' &&
    (chars.head? = some '-' || (whole.dropWhile (· = '0')).length ≤ 3)

/-- Whether a text begins with a time of hours and minutes. -/
def beginsWithTime (chars : List Char) : Bool :=
  let pair (a b : Char) (limit : Nat) : Bool :=
    a.isDigit && b.isDigit && Decimal.ofDigits [a, b] < limit
  match chars with
  | hour :: ':' :: a :: b :: _ => hour.isDigit && pair a b 60
  | a :: b :: ':' :: c :: d :: _ => pair a b 24 && pair c d 60
  | _ => false

/-- A date-time whose fraction of a second has these digits, if its moment is kept. -/
def keep (l : Local) (fraction : List Nat) : Except Refusal Local :=
  if Fraction.isKept l.moment fraction then .ok l else .error .noDateTime

/-- The date-time of an everyday spelling. -/
def ofInformal : Option Informal.Spelled → Except Refusal Local
  | some s => keep s.moment s.seen
  | none => .error .noDateTime

/-- The date-time of a reading with the year first. -/
def ofYearFirst (r : YearFirst.Reading) : Except Refusal Local :=
  if r.year ≤ 0 && r.fraction.length ≤ 6 then .error (.yearOutOfRange r.year)
  else
    match r.toLocal? with
    | some l => keep l r.fraction
    | none => .error .noDateTime

/-- The date-time at the start of a day. -/
def ofDay (day : Option Nat) : Except Refusal Local :=
  match day.bind fun day => ofDay? day .midnight with
  | some moment => .ok ⟨moment, none⟩
  | none => .error .noDateTime

/-- The date-time of a text that begins with a time, on the present day as far as it tells no other.
Of its fraction six digits count, however many there are. -/
def ofTime (now : Timestamp) (chars : List Char) : Except Refusal Local :=
  match Informal.read? now.date.year .lenient now.date chars with
  | some s => .ok s.moment
  | none => .error .noDateTime

/-- The first day of year 1, which stands for what a text does not tell. -/
def firstDay : Calendar.Date := ⟨1, 1, 1⟩

/-- The date-time of a text that has no pattern and does not begin with the year. -/
def readOther (now : Timestamp) (chars : List Char) : Except Refusal Local :=
  if isSmallNumber chars then .error .noDateTime
  else if beginsWithTime chars then ofTime now chars
  else
    match Period.read? chars with
    | some day => ofDay day
    | none => ofInformal (Informal.read? now.date.year .strict firstDay chars)

/-- Whether a text is a word for the present moment. -/
def isPresent (chars : List Char) : Bool := chars = "now".toList || chars = "today".toList

/-- The date-time of a text at a reading of the clock. -/
def read (now : Timestamp) (chars : List Char) : Except Refusal Local :=
  let chars := dropBack (· = '\x00') chars
  if isPresent chars then .ok ⟨now, none⟩
  else
    match Pattern.read? now chars, YearFirst.read? chars with
    | some l, _ => .ok l
    | none, some r => ofYearFirst r
    | none, none => readOther now chars

end Spelling

end FeedMerge.Timestamp
