/-!
# Doubles as exact numbers

A finite double is a mantissa times a power of two. `Binary.ofFloat` decodes it from its bits, and
`toInt?` gives its value when it has no fraction.
-/

namespace FeedMerge

/-- The number `mantissa · 2^exponent`, negated when `negative` is set. -/
structure Binary where
  negative : Bool
  mantissa : Nat
  exponent : Int
  deriving DecidableEq

namespace Binary

/-- The exponent field of a double. -/
def exponentField (bits : Nat) : Nat := bits / Nat.pow 2 52 % Nat.pow 2 11

/-- The fraction field of a double. -/
def fractionField (bits : Nat) : Nat := bits % Nat.pow 2 52

/-- The exact value of a finite double. -/
def ofFloat (x : Float) : Binary :=
  let bits := x.toBits.toNat
  let exponent := exponentField bits
  let fraction := fractionField bits
  { negative := Nat.pow 2 63 ≤ bits
    mantissa := if exponent = 0 then fraction else fraction + Nat.pow 2 52
    exponent := (if exponent = 0 then 1 else exponent : Nat) - 1075 }

/-- The value, if it is an integer. -/
def toInt? (b : Binary) : Option Int :=
  let scale := Nat.pow 2 (-b.exponent).toNat
  if b.mantissa % scale = 0 then
    let magnitude : Int := (b.mantissa / scale * Nat.pow 2 b.exponent.toNat : Nat)
    some (if b.negative then -magnitude else magnitude)
  else none

end Binary

end FeedMerge
