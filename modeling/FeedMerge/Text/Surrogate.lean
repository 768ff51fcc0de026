/-!
# Surrogates

A JSON text may name code points by their UTF-16 units, and so also a surrogate that stands alone.
That is part of a text like any character, but it has no encoding, and it is no `Char`. A private
character of the plane 15 stands for it here, the one with the same last four digits: U+FD800 for
U+D800, and so on up to U+FDFFF for U+DFFF. So texts that hold one of these 2048 private characters
themselves are left out: they would be taken for texts with surrogates.
-/

namespace FeedMerge.Text

/-- The character that stands for a surrogate. -/
def ofSurrogate (code : Nat) : Char := Char.ofNat (0xf0000 + code)

/-- Whether a character stands for a surrogate. -/
def isSurrogate (c : Char) : Bool := 0xfd800 ≤ c.toNat && c.toNat < 0xfe000

/-- The code point that a character stands for. -/
def codePoint (c : Char) : Nat := if isSurrogate c then c.toNat - 0xf0000 else c.toNat

/-- Whether a character stands for one of the surrogates by which the names of files tell bytes that
are no text. -/
def isRawByte (c : Char) : Bool := 0xdc80 ≤ codePoint c && codePoint c ≤ 0xdcff

/-- Whether a text has an encoding. -/
def isEncodable (text : String) : Bool := text.toList.all fun c => !isSurrogate c

end FeedMerge.Text
