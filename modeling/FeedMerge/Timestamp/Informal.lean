import FeedMerge.Timestamp.Fraction
import FeedMerge.Timestamp.Informal.Day

/-!
# Date-times in everyday spelling

The parts of a date-time are told from its tokens one after another: numerals with what stands
beside them, names of months and weekdays, the half of the day, and the zone. Blanks, points,
commas, hyphens, slashes and a few small words may stand anywhere; any other word or mark that tells
nothing makes the text no date-time.

* A numeral of 8, 12 or 14 digits holds a date and perhaps the time; one of six holds a date without
  its century, or a time behind a date. Numerals before a colon, or beside the words for hours,
  minutes and seconds, are the time, and so is one with the half of the day behind it, and one of
  two or four digits behind a date. All other numerals are numbers of the date.
* An offset follows the time: a sign with hours and minutes, or the word for universal time. Behind
  a word for a zone the sign counts the other way round, from the zone to universal time.

What is not told is taken from a day that is given, at midnight. Years of two digits are told by the
present year, so a reading of the clock is an argument of all that follows the tokens.
-/

namespace FeedMerge.Timestamp.Informal

/-- What is told of a date-time. The offset is in seconds, and the zone is a name that was given for
it. -/
structure Parts where
  date : DayNumbers := {}
  weekday : Option Nat := none
  hour : Option Nat := none
  minute : Option Nat := none
  second : Option Nat := none
  fraction : Option (List Nat) := none
  zone : Option (List Char) := none
  offset : Option Int := none

/-! ### Words -/

def monthNames : List String :=
  ["january", "february", "march", "april", "may", "june", "july", "august", "september",
    "october", "november", "december"]

def weekdayNames : List String :=
  ["monday", "tuesday", "wednesday", "thursday", "friday", "saturday", "sunday"]

def lower (chars : List Char) : List Char := chars.map Char.toLower

/-- The place of a name in a list; its first three letters do for the whole, and case does not
matter. -/
def nameIndex? (names : List String) (chars : List Char) : Option Nat :=
  names.findIdx? fun name => name.toList = lower chars || name.toList.take 3 = lower chars

/-- The number of a month by its name, where `Sept` is a short form of its own. -/
def month? : Token → Option Nat
  | .word chars =>
    if lower chars = "sept".toList then some 9 else (nameIndex? monthNames chars).map (· + 1)
  | _ => none

/-- The number of a weekday by its name, from 0 for Monday. -/
def weekday? : Token → Option Nat
  | .word chars => nameIndex? weekdayNames chars
  | _ => none

def isWord (words : List String) : Token → Bool
  | .word chars => words.contains (.ofList (lower chars))
  | _ => false

/-- The half of the day that a word stands for: whether it is the second one. -/
def half? (token : Token) : Option Bool :=
  if isWord ["am", "a"] token then some false
  else if isWord ["pm", "p"] token then some true
  else none

inductive ClockUnit where
  | hours
  | minutes
  | seconds
  deriving DecidableEq, Repr

/-- The unit of time that a word stands for. -/
def unit? (token : Token) : Option ClockUnit :=
  if isWord ["h", "hour", "hours"] token then some .hours
  else if isWord ["m", "minute", "minutes"] token then some .minutes
  else if isWord ["s", "second", "seconds"] token then some .seconds
  else none

/-- The unit below another one. -/
def ClockUnit.next? : ClockUnit → Option ClockUnit
  | hours => some minutes
  | minutes => some seconds
  | seconds => none

def fillers : List String := ["at", "on", "and", "ad", "m", "t", "of", "st", "nd", "rd", "th"]

/-- Tokens that tell nothing and may stand anywhere. -/
def isFiller : Token → Bool
  | .mark c => [' ', '.', ',', ';', '-', '/', '\''].contains c
  | token => isWord fillers token

/-- The words for universal time. -/
def isUniversal (chars : List Char) : Bool :=
  ["utc", "gmt", "z"].contains (.ofList (lower chars))

def isMark (c : Char) (token : Token) : Bool := token = .mark c

/-- The sign that a token is: whether it is a minus. -/
def sign? : Token → Option Bool
  | .mark '-' => some true
  | .mark '+' => some false
  | _ => none

/-! ### Times -/

/-- The hour of a day whose halves count to twelve. -/
def hourOfHalf (hour : Nat) (second : Bool) : Nat :=
  if second then if hour < 12 then hour + 12 else hour
  else if hour = 12 then 0 else hour

/-- The parts with the seconds that a numeral tells. -/
def Parts.withSeconds (p : Parts) (n : Numeral) : Parts :=
  { p with second := some n.floor, fraction := some n.fraction }

/-- The parts with the minutes that a numeral tells, and with the seconds of its fraction. -/
def Parts.withMinutes (p : Parts) (n : Numeral) : Parts :=
  { p with
    minute := some n.floor
    second := if n.isBroken then some n.sixtieths else none }

/-- The parts with a numeral of a unit of time. -/
def Parts.withUnit (p : Parts) (n : Numeral) : ClockUnit → Parts
  | .hours =>
    { p with
      hour := some n.floor
      minute := if n.isBroken then some n.sixtieths else p.minute }
  | .minutes => p.withMinutes n
  | .seconds => p.withSeconds n

/-- The unit that a numeral is told in, with how many of the tokens behind it belong to it. A word
behind the numeral names its unit, perhaps after a blank; otherwise a word before it names the unit
above, where a blank between them counts only at the end of the text. -/
def unitBeside? (before after : List Token) : Option (Option ClockUnit × Nat) :=
  let behind := (after.head?.bind unit?).map fun unit => (some unit, 1)
  let behindBlank := match after with
    | .mark ' ' :: token :: _ => (unit? token).map fun unit => (some unit, 2)
    | _ => none
  let ahead := (before.head?.bind unit?).map fun unit => (unit.next?, 0)
  let aheadOfBlank := match before, after with
    | .mark ' ' :: token :: _, [] => (unit? token).map fun unit => (unit.next?, 0)
    | _, _ => none
  behind.or (behindBlank.or (ahead.or aheadOfBlank))

/-! ### Numerals -/

/-- What a token tells: the parts with it, and how many of the tokens behind it belong to it. -/
abbrev Step := Option (Parts × Nat)

/-- The parts with the numbers of the date changed. -/
def Parts.withDate? (p : Parts) (change : DayNumbers → Option DayNumbers) : Option Parts :=
  (change p.date).map fun date => { p with date }

/-- The hour of a numeral of two digits, or the hour and the minute of one of four. -/
def stepHour (p : Parts) (n : Numeral) : Step :=
  if !n.fraction.isEmpty then none
  else
    let hour := Text.valueOfDigits (n.whole.take 2)
    if n.whole.length = 4 then
      some ({ p with hour := some hour, minute := some (Text.valueOfDigits (n.whole.drop 2)) }, 0)
    else some ({ p with hour := some hour }, 0)

/-- The date or the time of a numeral of six digits, where only seconds have a fraction. -/
def stepSix (p : Parts) (n : Numeral) : Step :=
  let (first, second, third) := (n.whole.take 2, (n.whole.drop 2).take 2, n.whole.drop 4)
  if n.whole.length ≠ 6 then none
  else if p.date.numbers.isEmpty && n.fraction.isEmpty then do
    let p ← p.withDate? fun date => do
      (← (← date.addDigits? first).addDigits? second).addDigits? third
    pure (p, 0)
  else
    let clock := { p with
      hour := some (Text.valueOfDigits first), minute := some (Text.valueOfDigits second) }
    some (clock.withSeconds ⟨third, n.fraction⟩, 0)

/-- The date of a numeral of 8, 12 or 14 digits, with the time that the digits behind it tell. -/
def stepGlued (p : Parts) (n : Numeral) : Step :=
  if !n.fraction.isEmpty then none
  else do
    let p ← p.withDate? fun date => do
      let date ← date.addYear? (Text.valueOfDigits (n.whole.take 4))
      (← date.addDigits? ((n.whole.drop 4).take 2)).addDigits? ((n.whole.drop 6).take 2)
    let pair (place : Nat) := Text.valueOfDigits ((n.whole.drop place).take 2)
    if n.whole.length = 8 then pure (p, 0)
    else
      let p := { p with hour := some (pair 8), minute := some (pair 10) }
      pure (if n.whole.length = 14 then { p with second := some (pair 12) } else p, 0)

/-- A time of hours and minutes with a colon between them, and perhaps seconds behind another one.
-/
def stepClock (p : Parts) (n : Numeral) : List Token → Step
  | .numeral minutes :: more =>
    let p := { p with hour := some n.floor }.withMinutes minutes
    match more with
    | .mark ':' :: .numeral seconds :: _ => some (p.withSeconds seconds, 4)
    | .mark ':' :: _ :: _ => none
    | _ => some (p, 2)
  | _ => none

/-- A number of the date behind a mark that is repeated. -/
def addMember? (date : DayNumbers) (token : Token) : Option DayNumbers :=
  match month? token, token with
  | some month, _ => date.addMonth? month
  | none, .numeral n => date.addPlain? n
  | none, _ => none

/-- Two or three numbers of a date with a mark between them; the month may be a name. -/
def stepMarked (p : Parts) (n : Numeral) (mark : Token) : List Token → Step
  | [] => do pure (← p.withDate? (·.addPlain? n), 1)
  | second :: more =>
    if isFiller second then do pure (← p.withDate? (·.addPlain? n), 1)
    else do
      let p ← p.withDate? fun date => do addMember? (← date.addPlain? n) second
      match more with
      | next :: rest =>
        if next = mark then
          match rest with
          | third :: _ => pure (← p.withDate? (addMember? · third), 4)
          | [] => none
        else pure (p, 2)
      | [] => pure (p, 2)

/-- A numeral that stands by itself: an hour if the half of the day follows, or a number of the
date. -/
def stepAlone (p : Parts) (n : Numeral) (after : List Token) : Step :=
  match after.tail.head?.bind half? with
  | some second => some ({ p with hour := some (hourOfHalf n.floor second) }, 2)
  | none => do pure (← p.withDate? (·.addValue? n), 1)

/-- A numeral with a word behind it that is no filler: the half of the day, or a word that has
nothing to do with it. -/
def stepBeforeWord (p : Parts) (n : Numeral) (next : Token) : Step :=
  match half? next with
  | some second =>
    if n.floor < 24 then some ({ p with hour := some (hourOfHalf n.floor second) }, 1)
    else if p.date.admitsDay n then do pure (← p.withDate? (·.addValue? n), 0)
    else none
  | none => if p.date.admitsDay n then do pure (← p.withDate? (·.addValue? n), 0) else none

/-- Whether a numeral behind a whole date is the hour. -/
def isHourBehindDate (p : Parts) (n : Numeral) (after : List Token) : Bool :=
  p.date.size = 3 && (n.width = 2 || n.width = 4) && p.hour.isNone &&
    match after with
    | [] => true
    | next :: _ => !isMark ':' next && (unit? next).isNone

def stepNumeral (p : Parts) (n : Numeral) (before after : List Token) : Step :=
  if isHourBehindDate p n after then stepHour p n
  else if n.width = 6 || n.whole.length = 6 then stepSix p n
  else if [8, 12, 14].contains n.width then stepGlued p n
  else
    match unitBeside? before after with
    | some (unit, belonging) => some ((unit.map (p.withUnit n)).getD p, belonging)
    | none =>
      match after with
      | .mark ':' :: second :: more => stepClock p n (second :: more)
      | [] => stepAlone p n []
      | next :: more =>
        if [.mark '-', .mark '/', .mark '.'].contains next then stepMarked p n next more
        else if isFiller next then stepAlone p n after
        else stepBeforeWord p n next

/-! ### Words and signs -/

/-- A month by its name, with the numbers behind it that a hyphen, a slash or the word `of` joins to
it. -/
def stepMonth (present : Nat) (p : Parts) (month : Nat) (after : List Token) : Step := do
  let p ← p.withDate? (·.addMonth? month)
  let plain (token : Token) (date : DayNumbers) : Option DayNumbers :=
    match token with
    | .numeral n => date.addPlain? n
    | _ => none
  match after with
  | .mark ' ' :: token :: .mark ' ' :: year :: _ =>
    if isWord ["of"] token then
      match year with
      | .numeral n =>
        match n.plain? with
        | some n => pure (← p.withDate? (·.addYear? (yearOfNumber present false n)), 4)
        | none => pure (p, 4)
      | _ => pure (p, 4)
    else pure (p, 0)
  | mark :: more =>
    if isMark '-' mark || isMark '/' mark then
      match more with
      | second :: next :: rest =>
        let p ← p.withDate? (plain second)
        if next = mark then
          match rest with
          | third :: _ => pure (← p.withDate? (plain third), 4)
          | [] => none
        else pure (p, 2)
      | [second] => pure (← p.withDate? (plain second), 2)
      | [] => none
    else pure (p, 0)
  | [] => pure (p, 0)

/-- The half of the day, which follows an hour of at most twelve. -/
def stepHalf (p : Parts) (second : Bool) : Step :=
  match p.hour with
  | some hour =>
    if hour ≤ 12 then some ({ p with hour := some (hourOfHalf hour second) }, 0) else none
  | none => none

/-- Whether a token can name the zone of the time before it. -/
def namesZone (p : Parts) (offset : Option Int) : Token → Bool
  | .word chars =>
    p.hour.isSome && p.zone.isNone && offset.isNone && chars.length ≤ 5 &&
      (chars.all Char.isUpper || chars = ['z'])
  | _ => false

/-- The hours and minutes behind a sign, and how many tokens tell them. -/
def offsetSize? : List Token → Option (Nat × Nat)
  | .numeral n :: more =>
    if n.width = 4 then
      if n.fraction.isEmpty then
        some (60 * Text.valueOfDigits (n.whole.take 2) + Text.valueOfDigits (n.whole.drop 2), 1)
      else none
    else
      match more with
      | .mark ':' :: .numeral minutes :: _ => do
        pure (60 * (← n.plain?) + (← minutes.plain?), 3)
      | .mark ':' :: _ => none
      | _ => if n.width ≤ 2 then (n.plain?).map fun hours => (60 * hours, 1) else none
  | _ => none

/-- The name of a zone in parentheses behind an offset. -/
def zoneBehind? (p : Parts) : List Token → Option (List Char)
  | filler :: .mark '(' :: .word chars :: .mark ')' :: _ =>
    if isFiller filler && 3 ≤ chars.length && namesZone p none (.word chars) then some chars
    else none
  | _ => none

/-- An offset behind its sign. -/
def stepOffset (p : Parts) (negative : Bool) (after : List Token) : Step := do
  let (minutes, used) ← offsetSize? after
  let seconds : Int := 60 * minutes
  let p := { p with offset := some (if negative then -seconds else seconds) }
  match zoneBehind? p (after.drop used) with
  | some chars => pure ({ p with zone := some chars }, used + 4)
  | none => pure (p, used)

/-- The name of a zone, and the offset to universal time that may follow. -/
def stepZone (p : Parts) (chars : List Char) (after : List Token) : Step :=
  match after.head?.bind sign? with
  | some negative => do
    let zone := if isUniversal chars then none else some chars
    let (p, used) ← stepOffset { p with zone, offset := none } (!negative) after.tail
    pure (p, used + 1)
  | none =>
    some ({ p with zone := some chars, offset := if chars = ['z'] then some 0 else none }, 0)

def stepWord (present : Nat) (p : Parts) (chars : List Char) (after : List Token) : Step :=
  let token := Token.word chars
  match weekday? token, month? token, half? token with
  | some weekday, _, _ => some ({ p with weekday := some weekday }, 0)
  | none, some month, _ => stepMonth present p month after
  | none, none, some second => stepHalf p second
  | none, none, none =>
    if namesZone p p.offset token then stepZone p chars after
    else if isFiller token then some (p, 0)
    else none

def stepMark (p : Parts) (c : Char) (after : List Token) : Step :=
  match p.hour, sign? (.mark c) with
  | some _, some negative => stepOffset p negative after
  | _, _ => if isFiller (.mark c) then some (p, 0) else none

/-- What a token tells between the tokens before it, last one first, and those behind it. -/
def step (present : Nat) (p : Parts) (before : List Token) (token : Token) (after : List Token) :
    Step :=
  match token with
  | .numeral n => stepNumeral p n before after
  | .word chars => stepWord present p chars after
  | .mark c => stepMark p c after

/-- What tokens tell beyond some parts. -/
def tell? (present : Nat) (p : Parts) (before tokens : List Token) : Option Parts :=
  match tokens with
  | [] => some p
  | token :: after =>
    match step present p before token after with
    | none => none
    | some (p, used) =>
      tell? present p ((after.take used).reverse ++ token :: before) (after.drop used)
termination_by tokens.length
decreasing_by simp only [List.length_drop, List.length_cons]; omega

/-! ### Date-times -/

/-- A date-time with the digits of its fraction of a second: those that were told, and those that
are seen behind a clock in the text, which say how exact it is. -/
structure Spelled where
  moment : Local
  fraction : List Nat
  seen : List Nat

/-- How the rest of a date-time is filled in. Strictly, a zone must be one that is known, and the
day must be one of its month. Leniently, a zone that is not known tells no offset, and a day that is
not told gives way to the last one of its month. -/
inductive Filling where
  | strict
  | lenient
  deriving DecidableEq, Repr

/-- The offset in seconds that a zone and an offset tell together. -/
def Parts.offset? (p : Parts) (filling : Filling) : Option (Option Int) :=
  match p.zone, p.offset with
  | none, none => some none
  | some chars, none =>
    if isUniversal chars then some (some 0)
    else
      match filling with
      | .strict => none
      | .lenient => some none
  | zone, some offset =>
    let offset := if (zone.map isUniversal).getD false then 0 else offset
    if offset.natAbs < 86400 then some (some offset) else none

/-- The days from a day to the next one of a weekday, if that is told in place of the day. -/
def daysToWeekday (day : Nat) (weekday : Option Nat) : Nat :=
  match weekday with
  | none => 0
  | some weekday => (weekday + 7 - Calendar.weekday day) % 7

/-- What a text tells of a date-time in the present year: its date and the other parts. -/
def parts? (present : Nat) (chars : List Char) : Option (DayParts × Parts) := do
  let p ← tell? present {} [] (tokens chars)
  let date ← p.date.resolve?
  pure ({ date with year := date.year.map (yearOfNumber present p.date.yearAt.isSome) }, p)

/-- Whether a date or a time is told at all. -/
def isTold (date : DayParts) (p : Parts) : Bool :=
  date ≠ {} || p.hour.isSome || p.minute.isSome || p.second.isSome || p.fraction.isSome

/-- The date that is told, with the rest from a day that is given. -/
def DayParts.fill (date : DayParts) (filling : Filling) (base : Calendar.Date) : Calendar.Date :=
  let year := date.year.getD base.year
  let month := date.month.getD base.month
  let day := match filling with
    | .strict => base.day
    | .lenient => min base.day (Calendar.daysInMonth year month)
  ⟨year, month, date.day.getD day⟩

/-- The date-time of what a text tells, with the rest from the midnight of a day. -/
def spell? (filling : Filling) (base : Calendar.Date) (chars : List Char) (date : DayParts)
    (p : Parts) : Option Spelled := do
  let day ← (date.fill filling base).dayNumber?
  let day := if date.day.isNone then day + daysToWeekday day p.weekday else day
  let fraction := p.fraction.getD []
  let clock : Clock :=
    ⟨p.hour.getD 0, p.minute.getD 0, p.second.getD 0, Fraction.micros fraction⟩
  let moment ← ofDay? day clock
  let offset ← p.offset? filling
  let seen := if p.fraction.isSome then Fraction.ofClock chars else []
  pure ⟨⟨moment, offset.map (· * 1000000)⟩, fraction, seen⟩

/-- The date-time of a text that tells a date or a time, read in the present year, with the rest
from the midnight of a day. -/
def read? (present : Nat) (filling : Filling) (base : Calendar.Date) (chars : List Char) :
    Option Spelled := do
  let (date, p) ← parts? present chars
  if isTold date p then spell? filling base chars date p else none

end FeedMerge.Timestamp.Informal
