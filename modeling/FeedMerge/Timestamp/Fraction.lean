import FeedMerge.Text.Digit
import FeedMerge.Timestamp

/-!
# Fractions of a second

The fraction of a second is told by digits, of which six count. More than six digits tell the moment
to the nanosecond, and such moments are kept only within `2^63` nanoseconds of the start of 1970,
which is from 1677 to 2262.
-/

namespace FeedMerge.Timestamp.Fraction

/-- The number of a fraction in units of which a power of ten makes a second. -/
def inUnits (places : Nat) (digits : List Nat) : Nat :=
  Text.valueOfDigits ((digits ++ List.replicate places 0).take places)

def micros (digits : List Nat) : Nat := inUnits 6 digits

def nanos (digits : List Nat) : Nat := inUnits 9 digits

/-- The digits of the fraction of the first time in a text that is told to the second: an hour, then
a colon and two digits for the minute and the same for the second, a point, and the fraction. -/
def ofClock : List Char → List Nat
  | [] => []
  | c :: rest =>
    match rest with
    | ':' :: a :: b :: ':' :: d :: e :: '.' :: behind =>
      let digits := (behind.takeWhile Text.isDecimalDigit).filterMap Text.digitValue?
      if [c, a, b, d, e].all Text.isDecimalDigit && !digits.isEmpty then digits else ofClock rest
    | _ => ofClock rest

/-- The start of 1970. -/
def epochMicros : Nat := (Calendar.Date.mk 1970 1 1).dayNumber * microsPerDay

/-- The nanoseconds of a moment since the start of 1970, where its fraction has these digits. -/
def epochNanos (moment : Timestamp) (digits : List Nat) : Int :=
  ((moment.micros : Int) - epochMicros) * 1000 + (nanos digits % 1000 : Nat)

/-- Whether a moment is kept, where its fraction has these digits. -/
def isKept (moment : Timestamp) (digits : List Nat) : Bool :=
  digits.length ≤ 6 || (epochNanos moment digits).natAbs < Nat.pow 2 63

end FeedMerge.Timestamp.Fraction
