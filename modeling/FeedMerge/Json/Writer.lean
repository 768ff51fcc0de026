import FeedMerge.Decimal.Layout
import FeedMerge.Json
import FeedMerge.Text.Surrogate

/-!
# Writing JSON

`Json.write` gives the text of a value in one of two layouts. Without an indent the items of an
array or object stand on one line, separated by a comma and a space; with an indent each item has a
line of its own, indented by that many spaces per level, and the comma ends the line. A negative
indent breaks the lines and indents none. Empty arrays and objects are always closed at once. Texts
escape the quote, the backslash and the control characters, and in an ASCII layout every other
character beyond ASCII as well, by its UTF-16 units.
-/

namespace FeedMerge.Json

/-- How a text is laid out: the indent per level, if lines are broken at all, and whether only ASCII
may occur. -/
structure Layout where
  indent : Option Int := none
  ascii : Bool := true

/-- The words for doubles that are not finite. -/
def numberWords : Decimal.Words := ⟨"NaN", "Infinity"⟩

/-- A UTF-16 unit as an escape. -/
def unitEscape (unit : Nat) : List Char :=
  let digits := Nat.toDigits 16 unit
  '\\' :: 'u' :: (List.replicate (4 - digits.length) '0' ++ digits)

/-- A character by its UTF-16 units. -/
def unicodeEscape (c : Char) : List Char :=
  let n := Text.codePoint c
  if n < 0x10000 then unitEscape n
  else unitEscape (0xd800 + (n - 0x10000) / 0x400) ++ unitEscape (0xdc00 + (n - 0x10000) % 0x400)

/-- One character inside a text. -/
def writeChar (ascii : Bool) (c : Char) : List Char :=
  if c = '"' then ['\\', '"']
  else if c = '\\' then ['\\', '\\']
  else if c = '\n' then ['\\', 'n']
  else if c = '\r' then ['\\', 'r']
  else if c = '\t' then ['\\', 't']
  else if c = '\x08' then ['\\', 'b']
  else if c = '\x0c' then ['\\', 'f']
  else if c.toNat < 0x20 then unitEscape c.toNat
  else if ascii && 0x7f ≤ c.toNat then unicodeEscape c
  else [c]

/-- A text in quotes. -/
def writeText (ascii : Bool) (text : String) : List Char :=
  '"' :: (text.toList.flatMap (writeChar ascii) ++ ['"'])

/-- The break before an item, or before a closing bracket, at a level. -/
def Layout.lineBreak (layout : Layout) (level : Nat) : List Char :=
  match layout.indent with
  | none => []
  | some width => '\n' :: List.replicate (width.toNat * level) ' '

/-- What stands between two items at a level. -/
def Layout.separator (layout : Layout) (level : Nat) : List Char :=
  match layout.indent with
  | none => [',', ' ']
  | some _ => ',' :: layout.lineBreak level

mutual

/-- The text of a value that stands at a level. -/
def writeValue (layout : Layout) (level : Nat) : Json → List Char
  | .null => "null".toList
  | .bool true => "true".toList
  | .bool false => "false".toList
  | .int n => (toString n).toList
  | .float x => (Decimal.floatText numberWords x).toList
  | .string s => writeText layout.ascii s
  | .array [] => ['[', ']']
  | .array (item :: items) =>
    '[' :: (layout.lineBreak (level + 1) ++ writeValue layout (level + 1) item ++
      writeItems layout (level + 1) items ++ layout.lineBreak level ++ [']'])
  | .object [] => ['\x7b', '\x7d']
  | .object ((name, value) :: fields) =>
    '\x7b' :: (layout.lineBreak (level + 1) ++ writeText layout.ascii name ++ [':', ' '] ++
      writeValue layout (level + 1) value ++ writeFields layout (level + 1) fields ++
      layout.lineBreak level ++ ['\x7d'])

/-- The items after the first, each after a separator. -/
def writeItems (layout : Layout) (level : Nat) : List Json → List Char
  | [] => []
  | item :: items =>
    layout.separator level ++ writeValue layout level item ++ writeItems layout level items

/-- The fields after the first, each after a separator. -/
def writeFields (layout : Layout) (level : Nat) : List (String × Json) → List Char
  | [] => []
  | (name, value) :: fields =>
    layout.separator level ++ writeText layout.ascii name ++ [':', ' '] ++
      writeValue layout level value ++ writeFields layout level fields

end

/-- The text of a value. -/
def write (layout : Layout) (value : Json) : String :=
  .ofList (writeValue layout 0 value)

/-- The text that a scalar is compared by: texts stand for themselves, null is empty, truth values
are capitalised, numbers are written as in JSON. -/
def comparisonText : Json → String
  | .null => ""
  | .string s => s
  | .bool true => "True"
  | .bool false => "False"
  | value => value.write {}

end FeedMerge.Json
