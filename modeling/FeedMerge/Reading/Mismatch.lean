/-!
# Mismatches

A mismatch is why a field refuses a value that it was given, or that it is given none.
-/

namespace FeedMerge

/-- Why a value does not suit a field. -/
inductive Mismatch where
  | required
  | notInteger
  | fractionalInteger
  | integerText
  | integerSize
  | notFinite
  | notNumber
  | numberText
  | notBoolean
  | booleanText
  | notText
  | illegibleText
  | notTimestamp (shown : String)
  | yearOutOfRange (year : Int)
  deriving DecidableEq, Repr

def Mismatch.message : Mismatch → String
  | .required => "Field required"
  | .notInteger => "Input should be a valid integer"
  | .fractionalInteger => "Input should be a valid integer, got a number with a fractional part"
  | .integerText => "Input should be a valid integer, unable to parse string as an integer"
  | .integerSize => "Unable to parse input string as an integer, exceeded maximum size"
  | .notFinite => "Input should be a finite number"
  | .notNumber => "Input should be a valid number"
  | .numberText => "Input should be a valid number, unable to parse string as a number"
  | .notBoolean => "Input should be a valid boolean"
  | .booleanText => "Input should be a valid boolean, unable to interpret input"
  | .notText => "Input should be a valid string"
  | .illegibleText =>
    "Input should be a valid string, unable to parse raw data as a unicode string"
  | .notTimestamp shown => "Value error, unparseable timestamp: " ++ shown
  | .yearOutOfRange year => s!"Value error, year {year} is out of range"

end FeedMerge
