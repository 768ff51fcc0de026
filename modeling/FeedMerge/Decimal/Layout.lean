import FeedMerge.Decimal.Shortest

/-!
# The text of a double

A double is written by its shortest numeral. The numeral is positional, with at least one digit on
either side of the point, when the first digit stands for a power of ten from `10^(-4)` to `10^15`;
otherwise one digit, a point if more follow, and an exponent with its sign and at least two digits.
The words for the values that are no numbers depend on where the text stands, so they are
parameters.
-/

namespace FeedMerge.Decimal

/-- The words for the doubles that are not finite numbers. -/
structure Words where
  nan : String
  infinity : String

/-- The digits of the coefficient without trailing zeros. -/
def significantDigits (coefficient : Nat) : List Char :=
  ((Nat.toDigits 10 coefficient).reverse.dropWhile (· = '0')).reverse

/-- Digits with the point after the first `point` of them, filled up with zeros. -/
def positional (digits : List Char) (point : Int) : List Char :=
  if point ≤ 0 then '0' :: '.' :: (List.replicate (-point).toNat '0' ++ digits)
  else if digits.length ≤ point then
    digits ++ List.replicate (point.toNat - digits.length) '0' ++ ['.', '0']
  else digits.take point.toNat ++ '.' :: digits.drop point.toNat

/-- The exponent mark, the sign, and at least two digits. -/
def exponentMark (power : Int) : List Char :=
  let digits := Nat.toDigits 10 power.natAbs
  'e' :: (if power < 0 then '-' else '+') :: (List.replicate (2 - digits.length) '0' ++ digits)

/-- One digit, the other digits after a point, and the exponent. -/
def scientific (digits : List Char) (power : Int) : List Char :=
  match digits with
  | [] => '0' :: exponentMark power
  | [first] => first :: exponentMark power
  | first :: rest => first :: '.' :: (rest ++ exponentMark power)

/-- The text of a numeral that is a shortest one. -/
def toChars (d : Decimal) : List Char :=
  let sign := if d.negative then ['-'] else []
  if d.coefficient = 0 then sign ++ ['0', '.', '0']
  else
    let digits := significantDigits d.coefficient
    let point : Int := (Nat.toDigits 10 d.coefficient).length + d.exponent
    if -4 < point && point ≤ 16 then sign ++ positional digits point
    else sign ++ scientific digits (point - 1)

/-- The text of a double. -/
def floatText (words : Words) (x : Float) : String :=
  if x.isNaN then words.nan
  else if x.isInf then (if x < 0.0 then "-" else "") ++ words.infinity
  else .ofList (ofFloat x).toChars

end FeedMerge.Decimal
