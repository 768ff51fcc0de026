import FeedMerge.Decimal
import FeedMerge.Decimal.Binary

/-!
# The shortest decimal numeral of a double

Every decimal numeral within the rounding interval of a double reads back as that double. Among
these, `ofFloat` picks one with the fewest digits, and of those the nearest to the double; an exact
tie goes to the even digit. Everything is exact arithmetic on natural numbers: the double is `value
/ unit`, its interval runs from `low / unit` to `high / unit`, and for each number of digits only
the two neighbours of the value on that decimal grid need a test, since a grid that meets the
interval has one of them in it.
-/

namespace FeedMerge.Decimal

/-- A positive double with its rounding interval, as fractions over `unit`; the ends belong to the
interval if `closed`. -/
structure Interval where
  value : Nat
  low : Nat
  high : Nat
  unit : Nat
  closed : Bool
  deriving DecidableEq

namespace Interval

/-- The interval of a positive double with the given exponent and fraction fields. Below a power of
two the next double is half as far, so the interval ends there at half the distance. -/
def ofFields (exponent fraction : Nat) : Interval :=
  let mantissa := if exponent = 0 then fraction else fraction + Nat.pow 2 52
  let below := if fraction = 0 && exponent > 1 then 1 else 2
  let shift : Int := (if exponent = 0 then 1 else exponent : Nat) - 1077
  let scale := Nat.pow 2 shift.toNat
  { value := 4 * mantissa * scale
    low := (4 * mantissa - below) * scale
    high := (4 * mantissa + 2) * scale
    unit := Nat.pow 2 (-shift).toNat
    closed := mantissa % 2 = 0 }

/-- Whether `coefficient · num / den` lies in the interval. -/
def contains (i : Interval) (num den coefficient : Nat) : Bool :=
  let point := coefficient * num * i.unit
  if i.closed then i.low * den ≤ point && point ≤ i.high * den
  else i.low * den < point && point < i.high * den

/-- The point of the grid of multiples of `num / den` that lies in the interval and is nearest to
the value. -/
def nearest? (i : Interval) (num den : Nat) : Option Nat :=
  let step := num * i.unit
  let floor := i.value * den / step
  let excess := i.value * den - floor * step
  match i.contains num den floor, i.contains num den (floor + 1) with
  | true, true =>
    if 2 * excess < step || (2 * excess = step && floor % 2 = 0) then some floor
    else some (floor + 1)
  | true, false => some floor
  | false, true => some (floor + 1)
  | false, false => none

/-- The number of digits before the decimal point of the value; for a value below one, minus the
number of zeros after it. -/
def integerDigits (i : Interval) : Int :=
  if i.unit ≤ i.value then digitCount (i.value / i.unit)
  else 1 - (digitCount ((i.unit + i.value - 1) / i.value - 1) : Int)

/-- The shortest numeral in the interval with at most 17 digits, as a coefficient and an exponent.
-/
def shortest (i : Interval) : Nat × Int :=
  let top := i.integerDigits
  let found := (List.range 17).findSome? fun (extra : Nat) =>
    let exponent : Int := top - (extra + 1)
    let grid := i.nearest? (Nat.pow 10 exponent.toNat) (Nat.pow 10 (-exponent).toNat)
    grid.map fun coefficient => (coefficient, exponent)
  found.getD (0, 0)

end Interval

/-- The shortest numeral of a finite double. -/
def ofFloat (x : Float) : Decimal :=
  let bits := x.toBits.toNat
  let exponent := Binary.exponentField bits
  let fraction := Binary.fractionField bits
  let negative := decide (Nat.pow 2 63 ≤ bits)
  if exponent = 0 && fraction = 0 then ⟨negative, 0, 0⟩
  else
    let (coefficient, power) := (Interval.ofFields exponent fraction).shortest
    ⟨negative, coefficient, power⟩

end FeedMerge.Decimal
