import FeedMerge.Decimal.Binary
import FeedMerge.Json.Writer
import FeedMerge.Reading.NumberText
import FeedMerge.Timestamp.Source

/-!
# Coercion of field values

Each field of a reading takes the JSON values that stand for one of its own without doubt: an
integer may be told by a double without a fraction or by a text, a truth value by a word, a number
by a truth value. A value that suits no reading of the field gives a `Mismatch`. A text with
surrogates tells no number and no truth value, but it may be a name.
-/

namespace FeedMerge.Coercion

/-- The end of the signed 64-bit range, which begins at the negative of it. -/
def wordEnd : Int := Nat.pow 2 63

/-- Whether an integer lies strictly between the ends of the signed 64-bit range. -/
def isInnerWord (n : Int) : Bool := -wordEnd < n && n < wordEnd

/-- What a text tells, unless it holds surrogates. -/
def ofLegible {α : Type} (tell : String → Except Mismatch α) (text : String) : Except Mismatch α :=
  if Text.isEncodable text then tell text else .error .illegibleText

def integerOfFloat (x : Float) : Except Mismatch Int :=
  if !x.isFinite then .error .notFinite
  else
    match (Binary.ofFloat x).toInt? with
    | none => .error .fractionalInteger
    | some n => if isInnerWord n then .ok n else .error .integerSize

def integer : Json → Except Mismatch Int
  | .int n => .ok n
  | .bool b => .ok (if b then 1 else 0)
  | .float x => integerOfFloat x
  | .string s => ofLegible integerOfText s
  | _ => .error .notInteger

/-- The double nearest to an integer. -/
def floatOfInt (n : Int) : Float :=
  (Decimal.mk (n < 0) n.natAbs 0).toFloat

/-- A number, perhaps infinite or not a number. -/
def number : Json → Except Mismatch Float
  | .float x => .ok x
  | .bool b => .ok (if b then 1.0 else 0.0)
  | .int n => if (floatOfInt n).isFinite then .ok (floatOfInt n) else .error .notNumber
  | .string s => ofLegible numberOfText s
  | _ => .error .notNumber

/-- A finite number. -/
def finiteNumber (value : Json) : Except Mismatch { x : Float // x.isFinite = true } :=
  match number value with
  | .error mismatch => .error mismatch
  | .ok x => if h : x.isFinite = true then .ok ⟨x, h⟩ else .error .notFinite

/-- The words for the truth values. -/
def falseWords : List String := ["0", "off", "f", "false", "n", "no"]

def trueWords : List String := ["1", "on", "t", "true", "y", "yes"]

def booleanOfText (text : String) : Except Mismatch Bool :=
  let word := String.ofList (text.toList.map Char.toLower)
  if falseWords.contains word then .ok false
  else if trueWords.contains word then .ok true
  else .error .booleanText

def booleanOfInt (n : Int) : Except Mismatch Bool :=
  if n = 0 then .ok false
  else if n = 1 then .ok true
  else if n = -wordEnd || isInnerWord n then .error .booleanText
  else .error .notBoolean

def boolean : Json → Except Mismatch Bool
  | .bool b => .ok b
  | .string s => ofLegible booleanOfText s
  | .int n => booleanOfInt n
  | .float x =>
    match integerOfFloat x with
    | .ok n => booleanOfInt n
    | .error _ => .error .notBoolean
  | _ => .error .notBoolean

/-- The mismatch of a source of a timestamp that is shown as the text. -/
def mismatchOfRefusal (shown : String) : Timestamp.Refusal → Mismatch
  | .noDateTime => .notTimestamp shown
  | .yearOutOfRange year => .yearOutOfRange year

/-- A text that no other value stands for. -/
def text : Json → Except Mismatch String
  | .string s => .ok s
  | _ => .error .notText

/-- A name: any scalar but null, by its comparison text. -/
def name : Json → Except Mismatch String
  | .null => .error .notText
  | value => if value.isScalar then .ok value.comparisonText else .error .notText

end FeedMerge.Coercion
