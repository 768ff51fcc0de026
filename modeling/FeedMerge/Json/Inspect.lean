import FeedMerge.Decimal.Layout
import FeedMerge.Json
import FeedMerge.Text.Quoted

/-!
# Values inside messages

`Json.inspect` is the form in which a message shows a value: texts are quoted as `Text.quote` says,
truth values and null are capitalised words, and arrays and objects list their items with a comma
and a space between them.
-/

namespace FeedMerge.Json

/-- The words for doubles that are not finite. -/
def inspectWords : Decimal.Words := ⟨"nan", "inf"⟩

mutual

def inspect : Json → String
  | .null => "None"
  | .bool true => "True"
  | .bool false => "False"
  | .int n => toString n
  | .float x => Decimal.floatText inspectWords x
  | .string s => Text.quote s
  | .array items => "[" ++ ", ".intercalate (inspectItems items) ++ "]"
  | .object fields => "\x7b" ++ ", ".intercalate (inspectFields fields) ++ "\x7d"

def inspectItems : List Json → List String
  | [] => []
  | item :: items => item.inspect :: inspectItems items

def inspectFields : List (String × Json) → List String
  | [] => []
  | (name, value) :: fields => (Text.quote name ++ ": " ++ value.inspect) :: inspectFields fields

end

/-- Names in quotes, listed in brackets. -/
def inspectNames (names : List String) : String :=
  (array (names.map string)).inspect

/-- The text of a value as such: a text stands for itself, any other value for what `inspect` shows.
-/
def plainText : Json → String
  | .string s => s
  | value => value.inspect

end FeedMerge.Json
