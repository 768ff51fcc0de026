import FeedMerge.Text.Digit

/-!
# Tokens of a date-time

A text is cut into numerals, words and single marks. A run of letters makes a word, a run of digits
a numeral, and every blank is a mark by itself. A point joins what stands on its two sides, and so
does a comma behind two or more digits: a numeral may go on with one fraction, but a run that holds
letters, or more than one point, or a point at its end, is cut at its points and commas again.
-/

namespace FeedMerge.Timestamp.Informal

/-- Digits, perhaps with digits of a fraction behind a point. -/
structure Numeral where
  whole : List Nat
  fraction : List Nat
  deriving DecidableEq, Repr

/-- How many characters a numeral is written with. -/
def Numeral.width (n : Numeral) : Nat :=
  if n.fraction.isEmpty then n.whole.length else n.whole.length + 1 + n.fraction.length

def Numeral.floor (n : Numeral) : Nat := Text.valueOfDigits n.whole

/-- Whether a numeral is not a whole number. -/
def Numeral.isBroken (n : Numeral) : Bool := n.fraction.any (· ≠ 0)

/-- The sixtieth parts in the fraction of a numeral, rounded down. -/
def Numeral.sixtieths (n : Numeral) : Nat :=
  60 * Text.valueOfDigits n.fraction / Nat.pow 10 n.fraction.length

/-- The value of a numeral that is written without a point. -/
def Numeral.plain? (n : Numeral) : Option Nat := if n.fraction.isEmpty then some n.floor else none

inductive Token where
  | numeral (n : Numeral)
  | word (chars : List Char)
  | mark (c : Char)
  deriving DecidableEq, Repr

namespace Token

def width : Token → Nat
  | numeral n => n.width
  | word chars => chars.length
  | mark _ => 1

/-- The digits of a run, if it holds nothing else. -/
def digits? (chars : List Char) : Option (List Nat) := chars.mapM Text.digitValue?

/-- The token of a run of characters. -/
def ofRun (chars : List Char) : Token :=
  let behind := chars.dropWhile (· ≠ '.')
  match digits? (chars.takeWhile (· ≠ '.')), behind with
  | some (first :: whole), [] => numeral ⟨first :: whole, []⟩
  | some (first :: whole), _ :: second :: more =>
    match digits? (second :: more) with
    | some fraction => numeral ⟨first :: whole, fraction⟩
    | none => word chars
  | _, _ =>
    match chars with
    | [c] => if c.isAlpha then word chars else mark c
    | _ => word chars

end Token

/-! ### Runs -/

/-- What a run of characters has become: letters or digits, and whether points joined it. -/
inductive RunKind where
  | letters
  | digits
  | pointedLetters
  | pointedDigits
  deriving DecidableEq, Repr

def RunKind.isLettered : RunKind → Bool
  | letters => true
  | pointedLetters => true
  | _ => false

def RunKind.isPointed : RunKind → Bool
  | pointedLetters => true
  | pointedDigits => true
  | _ => false

/-- A run of characters, last one first. A lettered run that meets a further character is told to be
lettered for good. -/
structure Run where
  kind : RunKind
  lettered : Bool
  reversed : List Char

namespace Run

/-- The run that a character begins. -/
def start? (c : Char) : Option Run :=
  if c.isAlpha then some ⟨.letters, false, [c]⟩
  else if Text.isDecimalDigit c then some ⟨.digits, false, [c]⟩
  else none

/-- What a run becomes by one more character, if that belongs to it. -/
def kindWith? (r : Run) (c : Char) : Option RunKind :=
  let behindPoint := r.reversed.head? = some '.'
  match r.kind with
  | .letters => if c.isAlpha then some .letters else if c = '.' then some .pointedLetters else none
  | .digits =>
    if Text.isDecimalDigit c then some .digits
    else if c = '.' || (c = ',' && 2 ≤ r.reversed.length) then some .pointedDigits
    else none
  | .pointedLetters =>
    if c = '.' || c.isAlpha then some .pointedLetters
    else if Text.isDecimalDigit c && behindPoint then some .pointedDigits
    else none
  | .pointedDigits =>
    if c = '.' || Text.isDecimalDigit c then some .pointedDigits
    else if c.isAlpha && behindPoint then some .pointedLetters
    else none

/-- The run after it met a character that does not belong to it. -/
def close (r : Run) : Run := { r with lettered := r.lettered || r.kind.isLettered }

/-- The run with one more character, if that belongs to it. -/
def extend? (r : Run) (c : Char) : Option Run :=
  (r.kindWith? c).map fun kind => ⟨kind, r.close.lettered, c :: r.reversed⟩

def isSplitter (c : Char) : Bool := c = '.' || c = ','

/-- The parts of a run between its points and commas, which are parts by themselves. -/
def parts : List Char → List (List Char)
  | [] => []
  | c :: rest =>
    if isSplitter c then [c] :: parts rest
    else
      match parts rest with
      | [] => [[c]]
      | part :: more => if part.any isSplitter then [c] :: part :: more else (c :: part) :: more

/-- Whether a run is cut at its points and commas. -/
def isCut (r : Run) : Bool :=
  r.kind.isPointed &&
    (r.lettered || 1 < r.reversed.count '.' || (r.reversed.head?.map isSplitter).getD false)

/-- The tokens of a run; a comma that is not cut at stands for a point. -/
def tokens (r : Run) : List Token :=
  let chars := r.reversed.reverse
  if r.isCut then (parts chars).map Token.ofRun
  else if r.kind = .pointedDigits && !chars.contains '.' then
    [.ofRun (chars.map fun c => if c = ',' then '.' else c)]
  else [.ofRun chars]

end Run

/-- The mark that a character is. -/
def markOf (c : Char) : Token := .mark (if Text.isBlank c then ' ' else c)

/-- The tokens of a run that may be under way and the text behind it. -/
def tokensAfter : Option Run → List Char → List Token
  | none, [] => []
  | some run, [] => run.tokens
  | none, c :: rest =>
    match Run.start? c with
    | some run => tokensAfter (some run) rest
    | none => markOf c :: tokensAfter none rest
  | some run, c :: rest =>
    match run.extend? c with
    | some longer => tokensAfter (some longer) rest
    | none =>
      match Run.start? c with
      | some next => run.close.tokens ++ tokensAfter (some next) rest
      | none => run.close.tokens ++ markOf c :: tokensAfter none rest

/-- The tokens of a text; a NUL is nothing. -/
def tokens (chars : List Char) : List Token := tokensAfter none (chars.filter (· ≠ '\x00'))

end FeedMerge.Timestamp.Informal
