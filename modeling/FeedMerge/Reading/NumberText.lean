import FeedMerge.Json.Reader
import FeedMerge.Reading.Mismatch
import FeedMerge.Text.Blank

/-!
# Number texts

A text may stand for a number. An integer text is brought into its plain spelling first, which is a
minus sign or none and digits without a zero before them: white space around it, a plus sign,
zeros at the front, zeros behind a point and single underscores are dropped. A number text is read
without the white space around it, or else without its single underscores, but never without both.
-/

namespace FeedMerge.Coercion

/-- The text without its underscores, unless one of them leads, ends, or follows another. -/
def ungroup? (chars : List Char) : Option (List Char) :=
  let doubled := (chars.zip chars.tail).contains ('_', '_')
  if chars.head? = some '_' || chars.getLast? = some '_' || doubled then none
  else some (chars.filter (· ≠ '_'))

/-! ### Integers -/

/-- The integer of a plain spelling; digits in excess are told whatever follows them. -/
def plainInteger (chars : List Char) : Except Mismatch Int :=
  let (negative, body) := match chars with
    | '-' :: rest => (true, rest)
    | rest => (false, rest)
  let digits := body.takeWhile Char.isDigit
  if digits.isEmpty || (digits.head? = some '0' && digits.length ≠ 1) then .error .integerText
  else if Json.integerDigitLimit < digits.length then .error .integerSize
  else if digits.length = body.length then
    let n : Int := Decimal.ofDigits digits
    .ok (if negative then -n else n)
  else .error .integerText

def isNonzeroDigit (c : Char) : Bool := c.isDigit && c ≠ '0'

/-- What counts of a text behind a zero: further zeros and underscores do not, but the last
character before a point or the end does. Another sign may still begin the number. -/
def behindZero? (last : Char) : List Char → Option (List Char)
  | [] => some [last]
  | c :: rest =>
    if c = '0' || c = '_' then behindZero? c rest
    else if c = '.' then some (last :: c :: rest)
    else if c = '-' || isNonzeroDigit c then some (c :: rest)
    else none

/-- The text without the zeros at its front. -/
def dropLeadingZeros? : List Char → Option (List Char)
  | [] => none
  | c :: rest =>
    if c = '0' then behindZero? c rest
    else if isNonzeroDigit c then some (c :: rest)
    else none

/-- The text without a point behind which there are only zeros, one or more. -/
def dropDecimalZeros (chars : List Char) : List Char :=
  let decimals := (chars.dropWhile (· ≠ '.')).drop 1
  if !decimals.isEmpty && decimals.all (· = '0') then chars.takeWhile (· ≠ '.') else chars

/-- The plain spelling of an integer behind its sign. -/
def unsignedSpelling? (chars : List Char) : Option (List Char) :=
  (dropLeadingZeros? chars).bind fun chars => ungroup? (dropDecimalZeros chars)

/-- The plain spelling of an integer. -/
def plainSpelling? : List Char → Option (List Char)
  | '-' :: rest => (unsignedSpelling? rest).map ('-' :: ·)
  | '+' :: rest => unsignedSpelling? rest
  | rest => unsignedSpelling? rest

/-- The integer that a text stands for. -/
def integerOfText (text : String) : Except Mismatch Int :=
  match plainInteger text.toList with
  | .ok n => .ok n
  | .error .integerSize => .error .integerSize
  | .error mismatch =>
    match plainSpelling? (Text.trimChars Text.isWhite text.toList) with
    | some chars => plainInteger chars
    | none => .error mismatch

/-! ### Numbers -/

/-- The sign of a number text, and the text behind it. -/
def splitSign : List Char → Bool × List Char
  | '-' :: rest => (true, rest)
  | '+' :: rest => (false, rest)
  | chars => (false, chars)

/-- The numeral behind a sign: digits with at most one point, then perhaps an exponent. -/
def numeral? (negative : Bool) (chars : List Char) : Option Decimal := do
  let whole := chars.takeWhile Char.isDigit
  let behind := chars.dropWhile Char.isDigit
  let (decimals, behind) := match behind with
    | '.' :: rest => (rest.takeWhile Char.isDigit, rest.dropWhile Char.isDigit)
    | rest => ([], rest)
  if whole.isEmpty && decimals.isEmpty then none
  else
    let power ← match behind with
      | [] => some 0
      | rest =>
        match Json.readExponent rest with
        | some (power, []) => some power
        | _ => none
    pure ⟨negative, Decimal.ofDigits (whole ++ decimals), power - decimals.length⟩

/-- A number as it is usually written, perhaps infinite or not a number. -/
def number? (chars : List Char) : Option Float :=
  let (negative, body) := splitSign chars
  let word := String.ofList (body.map Char.toLower)
  if word = "inf" || word = "infinity" then some (if negative then -1.0 / 0.0 else 1.0 / 0.0)
  else if word = "nan" then some (0.0 / 0.0)
  else (numeral? negative body).map Decimal.toFloat

/-- The number that a text stands for, perhaps infinite or not a number. -/
def numberOfText (text : String) : Except Mismatch Float :=
  match number? (Text.trimChars Text.isWhite text.toList) with
  | some x => .ok x
  | none =>
    match (ungroup? text.toList).bind number? with
    | some x => .ok x
    | none => .error .numberText

end FeedMerge.Coercion
