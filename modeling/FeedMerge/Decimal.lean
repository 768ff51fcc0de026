/-!
# Decimal numerals

A decimal numeral is a signed coefficient times a power of ten. `toFloat` gives the double nearest
to it, ties to even. A numeral far outside the range of doubles is settled by its magnitude alone,
so that a huge exponent costs nothing: a number of at least `10^310` rounds to infinity and one
below `10^(-330)` to zero.
-/

namespace FeedMerge

/-- The number `coefficient · 10^exponent`, negated when `negative` is set; zero keeps its sign. -/
structure Decimal where
  negative : Bool
  coefficient : Nat
  exponent : Int
  deriving DecidableEq

namespace Decimal

/-- How many decimal digits a number has; zero has none. -/
def digitCount (n : Nat) : Nat :=
  if n = 0 then 0 else (Nat.toDigits 10 n).length

/-- The nearest double to the absolute value. -/
def magnitude (d : Decimal) : Float :=
  let top := digitCount d.coefficient + d.exponent
  if d.coefficient = 0 || top < -330 then 0.0
  else if top > 310 then 1.0 / 0.0
  else OfScientific.ofScientific d.coefficient (d.exponent < 0) d.exponent.natAbs

/-- The nearest double. -/
def toFloat (d : Decimal) : Float :=
  if d.negative then -d.magnitude else d.magnitude

/-- The value of a run of decimal digits. -/
def ofDigits (digits : List Char) : Nat :=
  Nat.ofDigitChars 10 digits 0

theorem ofDigits_toDigits (n : Nat) : ofDigits (Nat.toDigits 10 n) = n :=
  Nat.ofDigitChars_toDigits (by decide) (by decide)

end Decimal

end FeedMerge
