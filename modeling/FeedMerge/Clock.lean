import FeedMerge.Timestamp.Fraction

/-!
# The clock

Everything that depends on the time of day takes a reading of the clock as an argument. Here it is
read from the system, which tells it by the file that was changed last. Local time is taken for UTC.
-/

namespace FeedMerge.Program

/-- The timestamp some seconds and nanoseconds after the start of 1970, if it is covered. -/
def ofEpoch? (seconds : Int) (nanos : Nat) : Option Timestamp :=
  Timestamp.ofMicros? (Timestamp.Fraction.epochMicros + seconds * 1000000 + (nanos / 1000 : Nat))

/-- The present reading of the clock. -/
def readClock : IO Timestamp := do
  let (_, path) ← IO.FS.createTempFile
  let modified := (← path.metadata).modified
  IO.FS.removeFile path
  match ofEpoch? modified.sec modified.nsec.toNat with
  | some now => return now
  | none => throw (IO.userError "the clock is beyond the calendar")

end FeedMerge.Program
