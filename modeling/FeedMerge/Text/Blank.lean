/-!
# Blank characters and trimming

Two classes of blank characters are in use. Number texts are trimmed by the Unicode property of
white space; every other text is trimmed by the wider class that also holds the four information
separators. Trimming drops the longest run of such characters at either end and keeps everything
between.
-/

namespace FeedMerge.Text

/-- White space in the sense of the Unicode property. -/
def isWhite (c : Char) : Bool :=
  let n := c.toNat
  (9 ≤ n && n ≤ 13) || n == 0x20 || n == 0x85 || n == 0xa0 || n == 0x1680 ||
    (0x2000 ≤ n && n ≤ 0x200a) || n == 0x2028 || n == 0x2029 || n == 0x202f || n == 0x205f ||
    n == 0x3000

/-- White space, or one of the information separators U+001C to U+001F. -/
def isBlank (c : Char) : Bool :=
  isWhite c || (0x1c ≤ c.toNat && c.toNat ≤ 0x1f)

/-- The characters without the longest runs of a class at either end. -/
def trimChars (blank : Char → Bool) (chars : List Char) : List Char :=
  ((chars.dropWhile blank).reverse.dropWhile blank).reverse

/-- The text without blank characters at either end. -/
def trim (text : String) : String :=
  .ofList (trimChars isBlank text.toList)

/-- A text of blank characters only, the empty one included. -/
def IsBlank (text : String) : Prop :=
  ∀ c ∈ text.toList, isBlank c = true

instance (text : String) : Decidable (IsBlank text) :=
  List.decidableBAll (fun c => isBlank c = true) text.toList

theorem toList_trim (text : String) : (trim text).toList = trimChars isBlank text.toList :=
  String.toList_ofList

end FeedMerge.Text
