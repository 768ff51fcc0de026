import FeedMerge.Text.Surrogate

/-!
# Text and bytes

Files hold UTF-8. `Utf8.decode` gives the text of well-formed bytes; of other bytes it tells the
first fault: the bytes that cannot be part of a character, and why. A text mode that reads files
turns every carriage return, with the line feed that may follow it, into one line feed.

Only surrogates have no bytes. `Utf8.encode` writes a text piece by piece up to the first piece that
holds one, and what was written of the pieces before remains.
-/

namespace FeedMerge.Text

namespace Utf8

/-- Why some bytes are no character. -/
inductive Reason where
  | startByte
  | continuationByte
  | endOfData
  deriving DecidableEq, Repr

def Reason.message : Reason → String
  | .startByte => "invalid start byte"
  | .continuationByte => "invalid continuation byte"
  | .endOfData => "unexpected end of data"

/-- The first fault of some bytes: `count` bytes from `offset` on, the first of which is `byte`. -/
structure Fault where
  reason : Reason
  byte : Nat
  offset : Nat
  count : Nat
  deriving DecidableEq, Repr

/-- A byte in two hexadecimal digits. -/
def hexByte (byte : Nat) : String :=
  .ofList ((if byte < 16 then ['0'] else []) ++ Nat.toDigits 16 byte)

def Fault.message (fault : Fault) : String :=
  let place :=
    if fault.count = 1 then s!"byte 0x{hexByte fault.byte} in position {fault.offset}"
    else s!"bytes in position {fault.offset}-{fault.offset + fault.count - 1}"
  s!"'utf-8' codec can't decode {place}: {fault.reason.message}"

/-- Whether a second byte may follow a first one: no character is written longer than needed, none
is a surrogate, and none lies beyond U+10FFFF. -/
def secondByteFits (first second : Nat) : Bool :=
  let low := if first = 0xe0 then 0xa0 else if first = 0xf0 then 0x90 else 0x80
  let high := if first = 0xed then 0x9f else if first = 0xf4 then 0x8f else 0xbf
  low ≤ second && second ≤ high

def isContinuation (byte : Nat) : Bool := 0x80 ≤ byte && byte ≤ 0xbf

/-- How many bytes a character has that begins with the given one. -/
def sequenceLength? (first : Nat) : Option Nat :=
  if first < 0x80 then some 1
  else if 0xc2 ≤ first && first ≤ 0xdf then some 2
  else if 0xe0 ≤ first && first ≤ 0xef then some 3
  else if 0xf0 ≤ first && first ≤ 0xf4 then some 4
  else none

/-- How many of the bytes after the first belong to its character, at most `wanted`. -/
def followers (first : Nat) (rest : List Nat) (wanted : Nat) : Nat :=
  match rest with
  | [] => 0
  | second :: rest =>
    if secondByteFits first second then
      1 + ((rest.take (wanted - 1)).takeWhile isContinuation).length
    else 0

/-- The first fault of bytes that begin at an offset; the fuel is their number. -/
def firstFault (offset : Nat) : Nat → List Nat → Option Fault
  | 0, _ => none
  | _, [] => none
  | fuel + 1, first :: rest =>
    match sequenceLength? first with
    | none => some ⟨.startByte, first, offset, 1⟩
    | some 1 => firstFault (offset + 1) fuel rest
    | some length =>
      let found := followers first rest (length - 1)
      if found + 1 = length then firstFault (offset + length) fuel (rest.drop found)
      else if found = rest.length then some ⟨.endOfData, first, offset, found + 1⟩
      else some ⟨.continuationByte, first, offset, found + 1⟩

/-- The text of some bytes, or their first fault. -/
def decode (bytes : ByteArray) : Except Fault String :=
  match String.fromUTF8? bytes with
  | some text => .ok text
  | none =>
    let numbers := bytes.toList.map UInt8.toNat
    .error ((firstFault 0 numbers.length numbers).getD ⟨.endOfData, 0, bytes.size, 1⟩)

theorem decode_toUTF8 (text : String) : decode text.toUTF8 = .ok text := by
  have h : String.fromUTF8? text.toUTF8 = some text := by
    simp [String.fromUTF8?, String.fromUTF8, text.isValidUTF8]
  unfold decode
  rw [h]

/-! ### Encoding -/

/-- Why a text has no bytes: it holds surrogates, `count` of them in a row from `offset` on. -/
structure EncodingFault where
  first : Char
  offset : Nat
  count : Nat
  deriving DecidableEq, Repr

def EncodingFault.message (fault : EncodingFault) : String :=
  let place :=
    if fault.count = 1 then
      let digits := String.ofList (Nat.toDigits 16 (codePoint fault.first))
      s!"character '\\u" ++ digits ++ s!"' in position {fault.offset}"
    else s!"characters in position {fault.offset}-{fault.offset + fault.count - 1}"
  "'utf-8' codec can't encode " ++ place ++ ": surrogates not allowed"

/-- The first surrogates in a text, where it may hold some of them. -/
def encodingFault? (allowed : Char → Bool) (chars : List Char) : Option EncodingFault :=
  let isFine (c : Char) : Bool := !isSurrogate c || allowed c
  match chars.dropWhile isFine with
  | [] => none
  | first :: rest =>
    some ⟨first, (chars.takeWhile isFine).length, (rest.takeWhile isSurrogate).length + 1⟩

/-- The characters of some pieces of text up to the first piece that has no bytes, and what is wrong
with that one. -/
def encodablePart : List (List Char) → List Char × Option EncodingFault
  | [] => ([], none)
  | piece :: pieces =>
    match encodingFault? (fun _ => false) piece with
    | some fault => ([], some fault)
    | none =>
      let (chars, fault) := encodablePart pieces
      (piece ++ chars, fault)

/-- What is written of some pieces of text, and what is wrong with the first that has no bytes. -/
def encode (pieces : List (List Char)) : ByteArray × Option EncodingFault :=
  let (chars, fault) := encodablePart pieces
  ((String.ofList chars).toUTF8, fault)

theorem fst_encodablePart {pieces : List (List Char)} (h : (encodablePart pieces).2 = none) :
    (encodablePart pieces).1 = pieces.flatten := by
  induction pieces with
  | nil => rfl
  | cons piece pieces ih =>
    rw [encodablePart] at h ⊢
    cases hpiece : encodingFault? (fun _ => false) piece with
    | some fault =>
      rw [hpiece] at h
      cases h
    | none =>
      rw [hpiece] at h
      dsimp only at h ⊢
      rw [ih h, List.flatten_cons]

/-- When nothing is wrong, all of the text is written. -/
theorem fst_encode {pieces : List (List Char)} (h : (encode pieces).2 = none) :
    (encode pieces).1 = (String.ofList pieces.flatten).toUTF8 := by
  change (String.ofList (encodablePart pieces).1).toUTF8 = _
  rw [fst_encodablePart h]

end Utf8

/-- Line ends of any kind as line feeds. -/
def unifyLineEnds : List Char → List Char
  | [] => []
  | '\r' :: '\n' :: rest => '\n' :: unifyLineEnds rest
  | '\r' :: rest => '\n' :: unifyLineEnds rest
  | c :: rest => c :: unifyLineEnds rest

theorem unifyLineEnds_eq_self (chars : List Char) (h : '\r' ∉ chars) :
    unifyLineEnds chars = chars := by
  induction chars with
  | nil => rfl
  | cons c rest ih =>
    have hc : c ≠ '\r' := fun e => h (by simp [e])
    have hrest : '\r' ∉ rest := fun e => h (List.mem_cons_of_mem _ e)
    unfold unifyLineEnds
    split <;> simp_all

end FeedMerge.Text
