import FeedMerge.Json.Inspect
import FeedMerge.Timestamp.Iso
import FeedMerge.Timestamp.Spelling

/-!
# What a timestamp is taken from

A timestamp is taken from a date-time as it is, or from a JSON value by its text: ISO 8601 is tried
first, with `Z` for a zero offset, then the other spellings, some of which tell a moment by the
clock only. Null, truth values and texts that are no date-time give none. A date-time with an offset
is brought to UTC, which fails when that moment is not covered; every source then gives a timestamp
without an offset, and the order of timestamps is the order of instants.
-/

namespace FeedMerge.Timestamp

inductive Source where
  | value (v : Json)
  | dateTime (l : Local)

/-- The moment in UTC lies before year 1 or after year 9999. -/
inductive RangeError where
  | beyondCalendar
  deriving DecidableEq, Repr

def RangeError.message : RangeError → String
  | .beyondCalendar => "date value out of range"

/-- The date-time that a trimmed text stands for at a reading of the clock. -/
def readLocal (now : Timestamp) (chars : List Char) : Except Refusal Local :=
  match Iso.read? (Iso.expandZulu chars) with
  | some l => .ok l
  | none => Spelling.read now chars

/-- The date-time brought to UTC. -/
def ofLocal (l : Local) : Except RangeError Timestamp :=
  match l.toUtc? with
  | some t => .ok t
  | none => .error .beyondCalendar

/-- The timestamp of a text with blanks around it, or why it is none. -/
def ofText (now : Timestamp) (text : String) : Except RangeError (Except Refusal Timestamp) :=
  match readLocal now (Text.trimChars Text.isBlank text.toList) with
  | .ok l => (ofLocal l).map .ok
  | .error refusal => .ok (.error refusal)

/-- The timestamp of a source at a reading of the clock, or why it is none. -/
def ofSource (now : Timestamp) : Source → Except RangeError (Except Refusal Timestamp)
  | .dateTime l => (ofLocal l).map .ok
  | .value .null => .ok (.error .noDateTime)
  | .value (.bool _) => .ok (.error .noDateTime)
  | .value v => ofText now v.plainText

end FeedMerge.Timestamp
