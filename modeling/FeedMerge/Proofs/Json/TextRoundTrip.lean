import FeedMerge.Json.Reader
import FeedMerge.Json.Writer

/-!
# Texts are read as they were written

Each character of a text is written as itself or as an escape, and the reader takes exactly that
character off again, whatever comes behind it (`readText_writeChar`). So a text between quotes is
read as it was written (`readText_writeText`). This holds of layouts that keep the characters
beyond ASCII; there every escape is either one letter behind a backslash or the code of a control
character.
-/

namespace FeedMerge.Json

/-! ### Codes -/

theorem toNat_not_surrogate (c : Char) : c.toNat < 0xd800 ∨ 0xdfff < c.toNat := by
  have hvalid := c.valid
  change c.toNat < 0xd800 ∨ 0xdfff < c.toNat ∧ c.toNat < 0x110000 at hvalid
  exact hvalid.imp_right And.left

theorem isHighSurrogate_toNat (c : Char) : isHighSurrogate c.toNat = false := by
  have hcode := toNat_not_surrogate c
  rw [isHighSurrogate, Bool.and_eq_false_iff, decide_eq_false_iff_not, decide_eq_false_iff_not]
  omega

theorem charOfCode_toNat (c : Char) : charOfCode c.toNat = c := by
  have hcode := toNat_not_surrogate c
  rw [charOfCode, if_neg]
  · exact Char.ofNat_toNat c
  · rw [Bool.and_eq_true, decide_eq_true_eq, decide_eq_true_eq]
    omega

/-- No character has the code of a surrogate, so none is joined with the one behind it. -/
theorem charsOfCodes_toNat (chars : List Char) : charsOfCodes (chars.map Char.toNat) = chars := by
  induction chars with
  | nil => rfl
  | cons c chars ih =>
    cases chars with
    | nil => rw [List.map_cons, List.map_nil, charsOfCodes, charOfCode_toNat]
    | cons d rest =>
      rw [List.map_cons, List.map_cons, charsOfCodes, isHighSurrogate_toNat, charOfCode_toNat,
        ← List.map_cons, ih]
      rfl

/-! ### Escapes -/

/-- The escape of a control character: its code has four digits, and reads as its number. -/
theorem unitEscape_eq {n : Nat} (h : n < 0x20) :
    unitEscape n = ['\\', 'u', '0', '0', Nat.digitChar (n / 16), Nat.digitChar (n % 16)] := by
  have hall : ∀ n < 0x20,
      unitEscape n = ['\\', 'u', '0', '0', Nat.digitChar (n / 16), Nat.digitChar (n % 16)] := by
    decide
  exact hall n h

theorem hexNumber?_of_lt {n : Nat} (h : n < 0x20) :
    hexNumber? ['0', '0', Nat.digitChar (n / 16), Nat.digitChar (n % 16)] = some n := by
  have hall : ∀ n < 0x20,
      hexNumber? ['0', '0', Nat.digitChar (n / 16), Nat.digitChar (n % 16)] = some n := by
    decide
  exact hall n h

/-- The three ways in which a character is written: as one letter behind a backslash, by its code if
it is a control character without such a letter, and as itself. -/
inductive Spelling (c : Char) : List Char → Prop
  | letter {e : Char} (hletter : shortEscape? e = some c) : Spelling c ['\\', e]
  | code (hcontrol : c.toNat < 0x20) : Spelling c (unitEscape c.toNat)
  | plain (hquote : c ≠ '"') (hbackslash : c ≠ '\\') (hcontrol : ¬ c.toNat < 0x20) : Spelling c [c]

theorem spelling_writeChar (c : Char) : Spelling c (writeChar false c) := by
  unfold writeChar
  -- the seven letters, from the quote to the form feed
  iterate 7
    split
    · rename_i h
      subst h
      exact .letter rfl
  rename_i hquote hbackslash _ _ _ _ _
  split
  · rename_i hcontrol
    exact .code hcontrol
  · rename_i hcontrol
    exact .plain hquote hbackslash hcontrol

variable {opening rest : List Char} {codes : List Nat}

theorem readText_quote :
    readText opening codes ('"' :: rest) = .ok (.ofList (charsOfCodes codes.reverse), rest) := by
  rw [readText.eq_def]
  simp

theorem readText_plain {c : Char} (hquote : c ≠ '"') (hbackslash : c ≠ '\\')
    (hcontrol : ¬ c.toNat < 0x20) :
    readText opening codes (c :: rest) = readText opening (c.toNat :: codes) rest := by
  rw [readText.eq_def]
  simp only [if_neg hquote, if_neg hcontrol, if_pos hbackslash]

theorem readText_shortEscape {c e : Char} (h : shortEscape? e = some c) :
    readText opening codes ('\\' :: e :: rest) = readText opening (c.toNat :: codes) rest := by
  have he : e ≠ 'u' := by
    rintro rfl
    simp [shortEscape?] at h
  rw [readText.eq_def]
  simp [he, h]

theorem readText_unitEscape {c next : Char} (h : c.toNat < 0x20) :
    readText opening codes (unitEscape c.toNat ++ next :: rest) =
      readText opening (c.toNat :: codes) (next :: rest) := by
  rw [unitEscape_eq h, readText.eq_def]
  simp [hexNumber?_of_lt h]

/-- Whatever a character is written as, it is read as that character. Something stands behind it,
the closing quote at least. -/
theorem readText_writeChar (c next : Char) :
    readText opening codes (writeChar false c ++ next :: rest) =
      readText opening (c.toNat :: codes) (next :: rest) := by
  have hspelling := spelling_writeChar c
  generalize writeChar false c = written at hspelling ⊢
  cases hspelling with
  | letter hletter => exact readText_shortEscape hletter
  | code hcontrol => exact readText_unitEscape hcontrol
  | plain hquote hbackslash hcontrol => exact readText_plain hquote hbackslash hcontrol

theorem readText_flatMap (chars : List Char) :
    readText opening codes (chars.flatMap (writeChar false) ++ '"' :: rest) =
      .ok (.ofList (charsOfCodes (codes.reverse ++ chars.map Char.toNat)), rest) := by
  induction chars generalizing codes with
  | nil => rw [List.flatMap_nil, List.nil_append, readText_quote, List.map_nil, List.append_nil]
  | cons c chars ih =>
    rw [List.flatMap_cons, List.append_assoc]
    obtain ⟨next, more, hnext⟩ : ∃ next more,
        chars.flatMap (writeChar false) ++ '"' :: rest = next :: more := by
      cases h : chars.flatMap (writeChar false) ++ '"' :: rest with
      | nil => simp at h
      | cons next more => exact ⟨next, more, rfl⟩
    rw [hnext, readText_writeChar, ← hnext, ih]
    simp

/-- A text that was written is read up to its closing quote, as it was. -/
theorem readText_writeText (text : String) :
    readText opening [] (text.toList.flatMap (writeChar false) ++ '"' :: rest) =
      .ok (text, rest) := by
  rw [readText_flatMap, List.reverse_nil, List.nil_append, charsOfCodes_toNat, String.ofList_toList]

/-- No carriage return stands in what is written, since it is written as a letter. -/
theorem notMem_writeText (text : String) : '\r' ∉ writeText false text := by
  have hchar (c : Char) : '\r' ∉ writeChar false c := by
    have hspelling := spelling_writeChar c
    generalize writeChar false c = written at hspelling ⊢
    cases hspelling with
    | @letter e hletter =>
      have he : e ≠ '\r' := by
        rintro rfl
        simp [shortEscape?] at hletter
      simp [he.symm]
    | code hcontrol =>
      have hall : ∀ n < 0x20, '\r' ∉ unitEscape n := by decide
      exact hall _ hcontrol
    | plain _ _ hcontrol =>
      have hc : c ≠ '\r' := by
        rintro rfl
        exact hcontrol (by decide)
      simp [hc.symm]
  simp [writeText, hchar]

end FeedMerge.Json
