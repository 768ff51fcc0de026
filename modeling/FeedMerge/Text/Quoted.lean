import FeedMerge.Text.Printable
import FeedMerge.Text.Surrogate

/-!
# Quoted text

The form in which texts stand inside messages. The quote is a single one, or a double one when the
text holds single quotes and no double quote. The quote and the backslash are escaped by a
backslash; line feed, carriage return and tab have short escapes; every other unprintable character
is written in hexadecimal with the least of two, four or eight digits that suffices.
-/

namespace FeedMerge.Text

/-- The digits of a number in lower-case hexadecimal, at least `width` of them. -/
def hexDigits (width : Nat) (n : Nat) : List Char :=
  let digits := Nat.toDigits 16 n
  List.replicate (width - digits.length) '0' ++ digits

/-- The quote that a text is put in. -/
def quoteMark (chars : List Char) : Char :=
  if chars.contains '\'' && !chars.contains '"' then '"' else '\''

/-- One character inside quotes. -/
def quoteChar (mark c : Char) : List Char :=
  if c = mark || c = '\\' then ['\\', c]
  else if c = '\n' then ['\\', 'n']
  else if c = '\r' then ['\\', 'r']
  else if c = '\t' then ['\\', 't']
  else if isPrintable c then [c]
  else
    let n := codePoint c
    if n ≤ 0xff then '\\' :: 'x' :: hexDigits 2 n
    else if n ≤ 0xffff then '\\' :: 'u' :: hexDigits 4 n
    else '\\' :: 'U' :: hexDigits 8 n

/-- The text in quotes. -/
def quote (text : String) : String :=
  let chars := text.toList
  let mark := quoteMark chars
  .ofList (mark :: (chars.flatMap (quoteChar mark) ++ [mark]))

end FeedMerge.Text
