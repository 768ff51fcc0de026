import FeedMerge.Decimal
import FeedMerge.Json
import FeedMerge.Text.Surrogate

/-!
# Reading JSON

`Json.read` reads a text that holds one JSON value between blanks. Beyond the standard the words
`NaN`, `Infinity` and `-Infinity` are numbers. A number with a fraction or an exponent is a double,
any other is an integer, of at most `integerDigitLimit` digits. A name that an object repeats keeps
its first place and its last value.

The readers below take the rest of the text and return a value with the rest behind it. When one
stops, it tells the rest at the place in question, so places are counted only once, in
`ReadError.at`. The value readers recurse on fuel; `fuelFor` grants more than any text of that
length can use.
-/

namespace FeedMerge.Json

/-- What is wrong at a place of a text. -/
inductive Malformation where
  | missingValue
  | extraData
  | missingComma
  | missingName
  | missingColon
  | openText
  | badEscape
  | badUnicodeEscape
  | controlCharacter
  | byteOrderMark
  deriving DecidableEq, Repr

def Malformation.message : Malformation → String
  | .missingValue => "Expecting value"
  | .extraData => "Extra data"
  | .missingComma => "Expecting ',' delimiter"
  | .missingName => "Expecting property name enclosed in double quotes"
  | .missingColon => "Expecting ':' delimiter"
  | .openText => "Unterminated string starting at"
  | .badEscape => "Invalid \\escape"
  | .badUnicodeEscape => "Invalid \\uXXXX escape"
  | .controlCharacter => "Invalid control character at"
  | .byteOrderMark => "Unexpected UTF-8 BOM (decode using utf-8-sig)"

/-- The most digits that an integer may be written with. -/
def integerDigitLimit : Nat := 4300

/-- Why a text has no value: a malformation, with the number of characters before it, its line and
its column, or an integer of too many digits. -/
inductive ReadError where
  | malformed (what : Malformation) (offset line column : Nat)
  | integerTooLong (digits : Nat)
  deriving DecidableEq, Repr

def ReadError.message : ReadError → String
  | .malformed what offset line column =>
    s!"{what.message}: line {line} column {column} (char {offset})"
  | .integerTooLong digits =>
    s!"Exceeds the limit ({integerDigitLimit} digits) for integer string conversion: " ++
      s!"value has {digits} digits; " ++
      "use sys.set_int_max_str_digits() to increase the limit"

/-- Why a reader stopped; a malformation comes with the text from its place on. -/
inductive Stop where
  | malformed (what : Malformation) (rest : List Char)
  | integerTooLong (digits : Nat)

/-- The error for a stop, with the place counted from the start of the text. -/
def ReadError.at (chars : List Char) : Stop → ReadError
  | .malformed what rest =>
    let before := chars.take (chars.length - rest.length)
    .malformed what before.length (before.count '\n' + 1)
      ((before.reverse.takeWhile (· ≠ '\n')).length + 1)
  | .integerTooLong digits => .integerTooLong digits

/-- A value and the text behind it. -/
abbrev Read (α : Type) := Except Stop (α × List Char)

/-- The characters that may stand between the parts of a document. -/
def isSpace (c : Char) : Bool :=
  c = ' ' || c = '\t' || c = '\n' || c = '\r'

def skipSpace (chars : List Char) : List Char :=
  chars.dropWhile isSpace

/-! ### Texts -/

/-- The number that four hexadecimal digits stand for. -/
def hexNumber? (digits : List Char) : Option Nat :=
  digits.foldlM (fun n c =>
    if c.isDigit then some (16 * n + (c.toNat - 48))
    else if 'a' ≤ c && c ≤ 'f' then some (16 * n + (c.toNat - 87))
    else if 'A' ≤ c && c ≤ 'F' then some (16 * n + (c.toNat - 55))
    else none) 0

def isHighSurrogate (code : Nat) : Bool := 0xd800 ≤ code && code < 0xdc00

def isLowSurrogate (code : Nat) : Bool := 0xdc00 ≤ code && code < 0xe000

/-- The character of a code, which may be a surrogate that stands alone. -/
def charOfCode (code : Nat) : Char :=
  if 0xd800 ≤ code && code < 0xe000 then Text.ofSurrogate code else Char.ofNat code

/-- The characters of a list of codes, where a high and a low surrogate in a row make one character.
-/
def charsOfCodes : List Nat → List Char
  | [] => []
  | [code] => [charOfCode code]
  | high :: low :: rest =>
    if isHighSurrogate high && isLowSurrogate low then
      Char.ofNat (0x10000 + (high - 0xd800) * 0x400 + (low - 0xdc00)) :: charsOfCodes rest
    else charOfCode high :: charsOfCodes (low :: rest)

/-- The character that a backslash before another character stands for. -/
def shortEscape? (c : Char) : Option Char :=
  if c = '"' || c = '\\' || c = '/' then some c
  else if c = 'b' then some '\x08'
  else if c = 'f' then some '\x0c'
  else if c = 'n' then some '\n'
  else if c = 'r' then some '\r'
  else if c = 't' then some '\t'
  else none

/-- The rest of a text whose opening quote begins `opening`; `codes` are the codes so far, last
first. -/
def readText (opening : List Char) (codes : List Nat) : List Char → Read String
  | [] => .error (.malformed .openText opening)
  | c :: rest =>
    if c = '"' then .ok (.ofList (charsOfCodes codes.reverse), rest)
    else if c.toNat < 0x20 then .error (.malformed .controlCharacter (c :: rest))
    else if c ≠ '\\' then readText opening (c.toNat :: codes) rest
    else
      match rest with
      | [] => .error (.malformed .openText opening)
      | e :: tail =>
        if e ≠ 'u' then
          match shortEscape? e with
          | some escaped => readText opening (escaped.toNat :: codes) tail
          | none => .error (.malformed .badEscape (c :: e :: tail))
        else
          match tail with
          | h₁ :: h₂ :: h₃ :: h₄ :: next :: more =>
            match hexNumber? [h₁, h₂, h₃, h₄] with
            | some code => readText opening (code :: codes) (next :: more)
            | none => .error (.malformed .badUnicodeEscape (e :: tail))
          | _ => .error (.malformed .badUnicodeEscape (e :: tail))

/-! ### Numbers -/

/-- The digits after a point, and the text behind them; without a digit the point is not part of the
number. -/
def readFraction (chars : List Char) : Option (List Char × List Char) :=
  match chars with
  | '.' :: rest =>
    let digits := rest.takeWhile Char.isDigit
    if digits.isEmpty then none else some (digits, rest.dropWhile Char.isDigit)
  | _ => none

/-- The exponent behind a mark; without a digit the mark is not part of the number. -/
def readExponent (chars : List Char) : Option (Int × List Char) :=
  match chars with
  | mark :: rest =>
    if mark ≠ 'e' && mark ≠ 'E' then none
    else
      let (negative, body) := match rest with
        | '-' :: body => (true, body)
        | '+' :: body => (false, body)
        | body => (false, body)
      let digits := body.takeWhile Char.isDigit
      if digits.isEmpty then none
      else
        let power : Int := Decimal.ofDigits digits
        some (if negative then -power else power, body.dropWhile Char.isDigit)
  | [] => none

/-- A number whose sign has been read and whose integer part is known. -/
def finishNumber (negative : Bool) (digits rest : List Char) : Read Json :=
  let fraction := readFraction rest
  let afterFraction := (fraction.map (·.2)).getD rest
  let exponent := readExponent afterFraction
  if fraction.isNone && exponent.isNone then
    if integerDigitLimit < digits.length then .error (.integerTooLong digits.length)
    else
      let n : Int := Decimal.ofDigits digits
      .ok (.int (if negative then -n else n), rest)
  else
    let decimals := (fraction.map (·.1)).getD []
    let power := (exponent.map (·.1)).getD 0
    let coefficient := Decimal.ofDigits (digits ++ decimals)
    let value : Decimal := ⟨negative, coefficient, power - decimals.length⟩
    .ok (.float value.toFloat, (exponent.map (·.2)).getD afterFraction)

/-- A number: no digit stands before another one if it is a zero. -/
def readNumber (chars : List Char) : Read Json :=
  let (negative, body) := match chars with
    | '-' :: body => (true, body)
    | body => (false, body)
  match body with
  | [] => .error (.malformed .missingValue chars)
  | first :: rest =>
    if first = '0' then finishNumber negative ['0'] rest
    else if first.isDigit then
      finishNumber negative (body.takeWhile Char.isDigit) (body.dropWhile Char.isDigit)
    else .error (.malformed .missingValue chars)

/-! ### Values -/

/-- The words that are values. -/
def keywords : List (String × Json) :=
  [("null", .null), ("true", .bool true), ("false", .bool false), ("NaN", .float (0.0 / 0.0)),
    ("Infinity", .float (1.0 / 0.0)), ("-Infinity", .float (-1.0 / 0.0))]

/-- The value of the keyword that a text begins with. -/
def readKeyword? (chars : List Char) : Option (Json × List Char) :=
  keywords.findSome? fun (word, value) =>
    if word.toList.isPrefixOf chars then some (value, chars.drop word.length) else none

mutual

/-- The value that a text begins with. -/
def readValue : Nat → List Char → Read Json
  | 0, chars => .error (.malformed .missingValue chars)
  | fuel + 1, chars =>
    match chars with
    | '"' :: rest => (readText chars [] rest).map fun (text, rest) => (.string text, rest)
    | '[' :: rest =>
      match skipSpace rest with
      | ']' :: rest => .ok (.array [], rest)
      | rest => (readItems fuel rest).map fun (items, rest) => (.array items, rest)
    | '\x7b' :: rest =>
      match skipSpace rest with
      | '\x7d' :: rest => .ok (.object [], rest)
      | rest =>
        (readFields fuel rest).map fun (fields, rest) => (.object (Fields.overlay [] fields), rest)
    | _ =>
      match readKeyword? chars with
      | some (value, rest) => .ok (value, rest)
      | none => readNumber chars

/-- The items of an array up to its closing bracket. -/
def readItems : Nat → List Char → Read (List Json)
  | 0, chars => .error (.malformed .missingValue chars)
  | fuel + 1, chars =>
    match readValue fuel chars with
    | .error stop => .error stop
    | .ok (item, rest) =>
      match skipSpace rest with
      | ']' :: rest => .ok ([item], rest)
      | ',' :: rest =>
        (readItems fuel (skipSpace rest)).map fun (items, rest) => (item :: items, rest)
      | rest => .error (.malformed .missingComma rest)

/-- The fields of an object up to its closing bracket. -/
def readFields : Nat → List Char → Read Fields
  | 0, chars => .error (.malformed .missingValue chars)
  | fuel + 1, chars =>
    match chars with
    | '"' :: rest =>
      match readText chars [] rest with
      | .error stop => .error stop
      | .ok (name, rest) =>
        match skipSpace rest with
        | ':' :: rest =>
          match readValue fuel (skipSpace rest) with
          | .error stop => .error stop
          | .ok (value, rest) =>
            match skipSpace rest with
            | '\x7d' :: rest => .ok ([(name, value)], rest)
            | ',' :: rest =>
              (readFields fuel (skipSpace rest)).map fun (fields, rest) =>
                ((name, value) :: fields, rest)
            | rest => .error (.malformed .missingComma rest)
        | rest => .error (.malformed .missingColon rest)
    | _ => .error (.malformed .missingName chars)

end

/-- Every second step at least takes a character. -/
def fuelFor (chars : List Char) : Nat :=
  2 * chars.length + 2

/-- The value of a whole text. -/
def readChars (chars : List Char) : Except Stop Json :=
  match chars with
  | '\ufeff' :: _ => .error (.malformed .byteOrderMark chars)
  | _ =>
    match readValue (fuelFor chars) (skipSpace chars) with
    | .error stop => .error stop
    | .ok (value, rest) =>
      match skipSpace rest with
      | [] => .ok value
      | rest => .error (.malformed .extraData rest)

/-- The value of a text. -/
def read (text : String) : Except ReadError Json :=
  (readChars text.toList).mapError (ReadError.at text.toList)

end FeedMerge.Json
