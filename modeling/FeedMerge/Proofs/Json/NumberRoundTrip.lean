import FeedMerge.Json.Reader
import FeedMerge.Json.Writer
import Mathlib.Data.List.TakeWhile

/-!
# Numbers are read as they were written

Behind a value stands a comma, a line break or a closing bracket (`EndsValue`). None of them
continues a number, so a number that is read to its end is read the same with one of them behind it
(`readNumber_append`); part by part this is so for the sign, the digits, the fraction and the
exponent.

An integer within the limit of digits is read as it was written (`readNumber_toString`). So is the
word for a double that is not finite, since there are only three such doubles
(`float_eq_of_not_isFinite`). Nothing is said here of the numerals of finite doubles, except that no
carriage return stands in them.
-/

namespace FeedMerge

namespace Decimal

/-! ### What a numeral is written with -/

theorem notMem_toDigits (n : Nat) : '\r' ∉ Nat.toDigits 10 n := by
  intro h
  have hdigit := Nat.isDigit_of_mem_toDigits (b := 10) (by decide) (by decide) h
  cases hdigit

theorem notMem_significantDigits (n : Nat) : '\r' ∉ significantDigits n := by
  unfold significantDigits
  rw [List.mem_reverse]
  intro h
  have hdigits := (List.dropWhile_suffix _).mem h
  exact notMem_toDigits n (List.mem_reverse.mp hdigits)

theorem notMem_exponentMark (power : Int) : '\r' ∉ exponentMark power := by
  unfold exponentMark
  have hdigits := notMem_toDigits power.natAbs
  split <;> simp [hdigits]

theorem notMem_positional {digits : List Char} (h : '\r' ∉ digits) (point : Int) :
    '\r' ∉ positional digits point := by
  unfold positional
  have htake : '\r' ∉ digits.take point.toNat := fun hmem => h (List.mem_of_mem_take hmem)
  have hdrop : '\r' ∉ digits.drop point.toNat := fun hmem => h (List.mem_of_mem_drop hmem)
  split
  · simp [h]
  · split
    · simp [h]
    · simp [htake, hdrop]

theorem notMem_scientific {digits : List Char} (h : '\r' ∉ digits) (power : Int) :
    '\r' ∉ scientific digits power := by
  have hmark := notMem_exponentMark power
  unfold scientific
  split <;> simp_all

/-- No line end of any kind stands in a numeral; it is the carriage return that matters. -/
theorem notMem_toChars (d : Decimal) : '\r' ∉ d.toChars := by
  have hdigits := notMem_significantDigits d.coefficient
  have hsign : '\r' ∉ (if d.negative then ['-'] else []) := by split <;> decide
  unfold toChars
  dsimp only
  split
  · simp [hsign]
  · split
    · simp [hsign, notMem_positional hdigits]
    · simp [hsign, notMem_scientific hdigits]

theorem notMem_floatText (x : Float) : '\r' ∉ (floatText Json.numberWords x).toList := by
  unfold floatText
  split
  · decide
  · split
    · split <;> decide
    · rw [String.toList_ofList]
      exact notMem_toChars (ofFloat x)

end Decimal

namespace Json

/-! ### What stands behind a value -/

/-- Behind a value that was written stands a comma, a line break or a closing bracket, if anything
stands there. -/
def EndsValue (rest : List Char) : Prop :=
  ∀ c ∈ rest.head?, c = ',' ∨ c = '\n' ∨ c = ']' ∨ c = '\x7d'

theorem EndsValue.of_cons {c : Char} {rest : List Char} (h : EndsValue (c :: rest)) :
    c = ',' ∨ c = '\n' ∨ c = ']' ∨ c = '\x7d' := h c rfl

variable {chars rest : List Char}

theorem EndsValue.takeWhile_eq_nil (h : EndsValue rest) : rest.takeWhile Char.isDigit = [] := by
  cases rest with
  | nil => rfl
  | cons c rest => rcases h.of_cons with rfl | rfl | rfl | rfl <;> rfl

theorem EndsValue.dropWhile_eq_self (h : EndsValue rest) : rest.dropWhile Char.isDigit = rest := by
  cases rest with
  | nil => rfl
  | cons c rest => rcases h.of_cons with rfl | rfl | rfl | rfl <;> rfl

theorem EndsValue.readFraction_eq_none (h : EndsValue rest) : readFraction rest = none := by
  cases rest with
  | nil => rfl
  | cons c rest => rcases h.of_cons with rfl | rfl | rfl | rfl <;> rfl

theorem EndsValue.readExponent_eq_none (h : EndsValue rest) : readExponent rest = none := by
  cases rest with
  | nil => rfl
  | cons c rest => rcases h.of_cons with rfl | rfl | rfl | rfl <;> rfl

/-! ### Reading on behind a number -/

theorem takeWhile_append_of_endsValue (h : EndsValue rest) :
    (chars ++ rest).takeWhile Char.isDigit = chars.takeWhile Char.isDigit := by
  induction chars with
  | nil => rw [List.nil_append, h.takeWhile_eq_nil, List.takeWhile_nil]
  | cons c chars ih => rw [List.cons_append, List.takeWhile_cons, List.takeWhile_cons, ih]

theorem dropWhile_append_of_endsValue (h : EndsValue rest) :
    (chars ++ rest).dropWhile Char.isDigit = chars.dropWhile Char.isDigit ++ rest := by
  induction chars with
  | nil => rw [List.nil_append, h.dropWhile_eq_self, List.dropWhile_nil, List.nil_append]
  | cons c chars ih =>
    rw [List.cons_append, List.dropWhile_cons, List.dropWhile_cons]
    split
    · exact ih
    · rfl

theorem readFraction_append (h : EndsValue rest) :
    readFraction (chars ++ rest) =
      (readFraction chars).map fun (digits, more) => (digits, more ++ rest) := by
  cases chars with
  | nil => rw [List.nil_append, h.readFraction_eq_none]; rfl
  | cons c chars =>
    by_cases hpoint : c = '.'
    · subst hpoint
      simp only [List.cons_append, readFraction, takeWhile_append_of_endsValue h,
        dropWhile_append_of_endsValue h]
      split <;> rfl
    · simp [readFraction, hpoint]

/-- The sign of an exponent, and what stands behind it. -/
def exponentSign : List Char → Bool × List Char
  | '-' :: body => (true, body)
  | '+' :: body => (false, body)
  | body => (false, body)

/-- An exponent whose sign has been read. -/
def finishExponent (negative : Bool) (body : List Char) : Option (Int × List Char) :=
  let digits := body.takeWhile Char.isDigit
  if digits.isEmpty then none
  else
    let power : Int := Decimal.ofDigits digits
    some (if negative then -power else power, body.dropWhile Char.isDigit)

theorem readExponent_cons (mark : Char) (body : List Char) :
    readExponent (mark :: body) = if mark ≠ 'e' && mark ≠ 'E' then none
      else finishExponent (exponentSign body).1 (exponentSign body).2 := rfl

theorem exponentSign_cons {sign : Char} {body : List Char} (hminus : sign ≠ '-')
    (hplus : sign ≠ '+') : exponentSign (sign :: body) = (false, sign :: body) := by
  unfold exponentSign
  split <;> simp_all

theorem exponentSign_append (h : EndsValue rest) :
    exponentSign (chars ++ rest) = ((exponentSign chars).1, (exponentSign chars).2 ++ rest) := by
  cases chars with
  | nil =>
    cases rest with
    | nil => rfl
    | cons c rest => rcases h.of_cons with rfl | rfl | rfl | rfl <;> rfl
  | cons sign chars =>
    by_cases hminus : sign = '-'
    · subst hminus
      rfl
    · by_cases hplus : sign = '+'
      · subst hplus
        rfl
      · rw [List.cons_append, exponentSign_cons hminus hplus, exponentSign_cons hminus hplus,
          List.cons_append]

theorem readExponent_append (h : EndsValue rest) :
    readExponent (chars ++ rest) =
      (readExponent chars).map fun (power, more) => (power, more ++ rest) := by
  cases chars with
  | nil =>
    rw [List.nil_append, h.readExponent_eq_none]
    rfl
  | cons mark chars =>
    rw [List.cons_append, readExponent_cons, readExponent_cons, exponentSign_append h]
    split
    · rfl
    · unfold finishExponent
      dsimp only
      rw [takeWhile_append_of_endsValue h, dropWhile_append_of_endsValue h]
      split <;> rfl

/-- What ends a value is left alone, and the rest of the number is read as without it. -/
theorem finishNumber_append (h : EndsValue rest) (negative : Bool) (digits : List Char) :
    finishNumber negative digits (chars ++ rest) =
      (finishNumber negative digits chars).map fun (value, more) => (value, more ++ rest) := by
  unfold finishNumber
  rw [readFraction_append h]
  cases readFraction chars with
  | none =>
    simp only [Option.map_none, Option.getD_none, Option.isNone_none, Bool.true_and]
    rw [readExponent_append h]
    cases readExponent chars with
    | none =>
      simp only [Option.map_none, Option.isNone_none, if_true]
      split <;> rfl
    | some exponent => rfl
  | some fraction =>
    simp only [Option.map_some, Option.getD_some, Option.isNone_some, Bool.false_and,
      Bool.false_eq_true, if_false]
    rw [readExponent_append h]
    cases readExponent fraction.2 <;> rfl

/-! ### Numbers -/

/-- The sign of a number, and what stands behind it. -/
def numberSign : List Char → Bool × List Char
  | '-' :: body => (true, body)
  | body => (false, body)

/-- A number whose sign has been read from the whole of it. -/
def readMagnitude (whole : List Char) (negative : Bool) : List Char → Read Json
  | [] => .error (.malformed .missingValue whole)
  | first :: rest =>
    if first = '0' then finishNumber negative ['0'] rest
    else if first.isDigit then
      finishNumber negative ((first :: rest).takeWhile Char.isDigit)
        ((first :: rest).dropWhile Char.isDigit)
    else .error (.malformed .missingValue whole)

theorem readNumber_eq (chars : List Char) :
    readNumber chars = readMagnitude chars (numberSign chars).1 (numberSign chars).2 := by
  unfold readNumber
  split
  rename_i negative body hsign
  change numberSign chars = (negative, body) at hsign
  rw [hsign]
  cases body <;> rfl

theorem numberSign_cons {sign : Char} {body : List Char} (h : sign ≠ '-') :
    numberSign (sign :: body) = (false, sign :: body) := by
  unfold numberSign
  split <;> simp_all

theorem exists_digit_of_readMagnitude {whole body : List Char} {negative : Bool}
    {result : Json × List Char} (h : readMagnitude whole negative body = .ok result) :
    ∃ first more, body = first :: more ∧ first.isDigit = true := by
  cases body with
  | nil => cases h
  | cons first more =>
    refine ⟨first, more, rfl, ?_⟩
    rw [readMagnitude] at h
    split at h
    · rename_i hzero
      rw [hzero]
      rfl
    · split at h
      · assumption
      · cases h

theorem readMagnitude_append {whole longer body : List Char} {negative : Bool} {value : Json}
    (hread : readMagnitude whole negative body = .ok (value, [])) (h : EndsValue rest) :
    readMagnitude longer negative (body ++ rest) = .ok (value, rest) := by
  obtain ⟨first, more, rfl, hdigit⟩ := exists_digit_of_readMagnitude hread
  rw [readMagnitude] at hread
  rw [List.cons_append, readMagnitude]
  split at hread
  · rename_i hzero
    rw [if_pos hzero, finishNumber_append h, hread]
    rfl
  · rename_i hzero
    rw [if_neg hzero, if_pos hdigit, ← List.cons_append, takeWhile_append_of_endsValue h,
      dropWhile_append_of_endsValue h, finishNumber_append h, hread]
    rfl

/-- A number that is read up to its end is read the same if a value may end there. -/
theorem readNumber_append {value : Json} (hread : readNumber chars = .ok (value, []))
    (h : EndsValue rest) : readNumber (chars ++ rest) = .ok (value, rest) := by
  have hsign : numberSign (chars ++ rest) =
      ((numberSign chars).1, (numberSign chars).2 ++ rest) := by
    cases chars with
    | nil => cases hread
    | cons sign body =>
      by_cases hminus : sign = '-'
      · subst hminus
        rfl
      · rw [List.cons_append, numberSign_cons hminus, numberSign_cons hminus, List.cons_append]
  rw [readNumber_eq] at hread
  rw [readNumber_eq, hsign]
  exact readMagnitude_append hread h

/-! ### Integers -/

theorem head?_toDigits_ne_zero {n : Nat} (h : 0 < n) : (Nat.toDigits 10 n).head? ≠ some '0' := by
  induction n using Nat.strongRecOn with
  | ind n ih =>
    by_cases hsmall : n < 10
    · rw [Nat.toDigits_of_lt_base hsmall]
      simp
      omega
    · have hlast := Nat.toDigits_of_base_le (b := 10) (n := n) (by decide) (by omega)
      have hinit := ih (n / 10) (by omega) (by omega)
      -- the first digit of `n` is that of `n / 10`
      rw [hlast, List.head?_append]
      cases hdigits : Nat.toDigits 10 (n / 10) with
      | nil => exact absurd hdigits Nat.toDigits_ne_nil
      | cons first rest => simpa [hdigits] using hinit

theorem finishNumber_nil {digits : List Char} (negative : Bool)
    (h : digits.length ≤ integerDigitLimit) :
    finishNumber negative digits [] =
      .ok (.int (if negative then -(Decimal.ofDigits digits : Int) else Decimal.ofDigits digits),
        []) := by
  unfold finishNumber
  rw [if_neg (Nat.not_lt.mpr h)]
  rfl

theorem readMagnitude_toDigits (whole : List Char) (negative : Bool) {n : Nat}
    (h : (Nat.toDigits 10 n).length ≤ integerDigitLimit) :
    readMagnitude whole negative (Nat.toDigits 10 n) =
      .ok (.int (if negative then -(n : Int) else n), []) := by
  rcases Nat.eq_zero_or_pos n with rfl | hpos
  · cases negative <;> rfl
  · have hhead := head?_toDigits_ne_zero hpos
    have hdigits : ∀ c ∈ Nat.toDigits 10 n, c.isDigit = true := fun c hc =>
      Nat.isDigit_of_mem_toDigits (by decide) (by decide) hc
    have hfinish := finishNumber_nil negative h
    rw [Decimal.ofDigits_toDigits] at hfinish
    cases hwritten : Nat.toDigits 10 n with
    | nil => exact absurd hwritten Nat.toDigits_ne_nil
    | cons first more =>
      rw [hwritten] at hhead hdigits hfinish
      have hzero : first ≠ '0' := by simpa using hhead
      rw [readMagnitude, if_neg hzero, if_pos (hdigits first List.mem_cons_self),
        List.takeWhile_eq_self_iff.mpr hdigits, List.dropWhile_eq_nil_iff.mpr hdigits, hfinish]

theorem toList_toString_ofNat (m : Nat) :
    (toString (Int.ofNat m)).toList = Nat.toDigits 10 m := Nat.toList_repr

theorem toList_toString_negSucc (m : Nat) :
    (toString (Int.negSucc m)).toList = '-' :: Nat.toDigits 10 (m + 1) := by
  change ("-" ++ Nat.repr (m + 1)).toList = _
  rw [String.toList_append, Nat.toList_repr]
  rfl

theorem notMem_toString (n : Int) : '\r' ∉ (toString n).toList := by
  cases n with
  | ofNat m =>
    rw [toList_toString_ofNat]
    exact Decimal.notMem_toDigits m
  | negSucc m =>
    rw [toList_toString_negSucc]
    simp [Decimal.notMem_toDigits]

/-- An integer within the limit of digits is read as it was written. -/
theorem readNumber_toString {n : Int} (h : (Nat.toDigits 10 n.natAbs).length ≤ integerDigitLimit) :
    readNumber (toString n).toList = .ok (.int n, []) := by
  cases n with
  | ofNat m =>
    have hsign : numberSign (Nat.toDigits 10 m) = (false, Nat.toDigits 10 m) := by
      cases hdigits : Nat.toDigits 10 m with
      | nil => rfl
      | cons first more =>
        apply numberSign_cons
        rintro rfl
        have hdigit := Nat.isDigit_of_mem_toDigits (b := 10) (n := m) (c := '-') (by decide)
          (by decide) (by rw [hdigits]; exact List.mem_cons_self)
        cases hdigit
    rw [toList_toString_ofNat, readNumber_eq, hsign]
    exact readMagnitude_toDigits _ false h
  | negSucc m =>
    rw [toList_toString_negSucc, readNumber_eq]
    exact readMagnitude_toDigits _ true h

/-! ### Numbers as values -/

theorem exists_digit_of_readNumber {result : Json × List Char}
    (h : readNumber chars = .ok result) :
    ∃ first more, (numberSign chars).2 = first :: more ∧ first.isDigit = true :=
  exists_digit_of_readMagnitude ((readNumber_eq chars).symm.trans h)

theorem numberSign_prefix {word : List Char} (hword : word ≠ []) (h : word <+: chars) :
    (numberSign word).2 <+: (numberSign chars).2 := by
  obtain ⟨more, rfl⟩ := h
  cases word with
  | nil => exact absurd rfl hword
  | cons sign body =>
    rw [List.cons_append]
    by_cases hminus : sign = '-'
    · subst hminus
      exact List.prefix_append body more
    · rw [numberSign_cons hminus, numberSign_cons hminus]
      exact List.prefix_append (sign :: body) more

/-- A keyword has a letter where a number has its first digit. -/
theorem keywords_begin_with_letter : ∀ word ∈ keywords.map Prod.fst,
    word.toList ≠ [] ∧ (numberSign word.toList).2.head?.any (fun c => !c.isDigit) = true := by
  have hwords : keywords.map Prod.fst = ["null", "true", "false", "NaN", "Infinity", "-Infinity"] :=
    rfl
  rw [hwords]
  decide

/-- So a number is not taken for a keyword, also not for the longer one with a sign. -/
theorem readKeyword?_of_readNumber {result : Json × List Char} (h : readNumber chars = .ok result) :
    readKeyword? chars = none := by
  obtain ⟨first, more, hbody, hdigit⟩ := exists_digit_of_readNumber h
  unfold readKeyword?
  rw [List.findSome?_eq_none_iff]
  rintro ⟨word, value⟩ hmem
  apply if_neg
  rw [List.isPrefixOf_iff_prefix]
  intro hbegins
  obtain ⟨hne, hletter⟩ := keywords_begin_with_letter word (List.mem_map_of_mem hmem)
  have hrest := numberSign_prefix hne hbegins
  rw [hbody] at hrest
  cases hword : (numberSign word.toList).2 with
  | nil =>
    rw [hword] at hletter
    cases hletter
  | cons c cs =>
    rw [hword] at hletter hrest
    rw [(List.cons_prefix_cons.mp hrest).1] at hletter
    simp [hdigit] at hletter

theorem readValue_of_readNumber {result : Json × List Char} (fuel : Nat)
    (h : readNumber chars = .ok result) : readValue (fuel + 1) chars = .ok result := by
  obtain ⟨first, more, hbody, hdigit⟩ := exists_digit_of_readNumber h
  rw [readValue]
  · rw [readKeyword?_of_readNumber h, h]
  all_goals
    rintro rest rfl
    cases hbody
    cases hdigit

/-! ### Doubles that are no finite numbers -/

section

open Float.Model Float.Model.UnpackedFloat

theorem float_eq_of_toBits {x y : Float} (h : x.toBits.toNat = y.toBits.toNat) : x = y := by
  obtain ⟨⟨bits, hx⟩⟩ := x
  obtain ⟨⟨more, hy⟩⟩ := y
  have hbits : bits = more := UInt64.toNat_inj.mp h
  subst hbits
  rfl

/-- A double is finite unless all bits of its exponent are set. -/
theorem isFinite_of_unpackExponent_ne {x : Float}
    (h : @unpackExponent Format.binary64 x.toModel.toBits.toBitVec ≠ -1#11) :
    x.isFinite = true := by
  change (UnpackedFloat.unpack Format.binary64 x.toModel.toBits.toBitVec).isFinite = true
  unfold UnpackedFloat.unpack
  dsimp only
  rw [if_neg h]
  by_cases hexponent : @unpackExponent Format.binary64 x.toModel.toBits.toBitVec = 0#11
  · rw [if_pos hexponent]
    by_cases hmantissa : @unpackMantissa Format.binary64 x.toModel.toBits.toBitVec = 0#52
    · rw [dif_pos hmantissa]
      rfl
    · rw [dif_neg hmantissa]
      rfl
  · rw [if_neg hexponent]
    rfl

/-- There are two infinities: all bits of the exponent are set, none of the mantissa is, and the
sign is left. -/
theorem float_eq_of_unpackMantissa_eq {x : Float}
    (hexponent : @unpackExponent Format.binary64 x.toModel.toBits.toBitVec = -1#11)
    (hmantissa : @unpackMantissa Format.binary64 x.toModel.toBits.toBitVec = 0#52) :
    x = 1.0 / 0.0 ∨ x = -1.0 / 0.0 := by
  have hhigh : x.toModel.toBits.toNat / 2 ^ 52 % 2 ^ 11 = 2 ^ 11 - 1 := by
    have h := congrArg BitVec.toNat hexponent
    simpa [unpackExponent, BitVec.extractLsb, Nat.shiftRight_eq_div_pow] using h
  have hlow : x.toModel.toBits.toNat % 2 ^ 52 = 0 := by
    have h := congrArg BitVec.toNat hmantissa
    simpa [unpackMantissa, BitVec.extractLsb] using h
  have hlt : x.toModel.toBits.toNat < 2 ^ 64 := x.toModel.toBits.toBitVec.isLt
  have hbits : x.toModel.toBits.toNat = 0x7ff0000000000000 ∨
      x.toModel.toBits.toNat = 0xfff0000000000000 := by
    omega
  exact hbits.imp float_eq_of_toBits float_eq_of_toBits

/-- Three doubles are not finite: one that is not a number, and two infinities. -/
theorem float_eq_of_not_isFinite {x : Float} (h : x.isFinite = false) :
    x = 0.0 / 0.0 ∨ x = 1.0 / 0.0 ∨ x = -1.0 / 0.0 := by
  have hexponent : @unpackExponent Format.binary64 x.toModel.toBits.toBitVec = -1#11 := by
    by_contra hne
    rw [isFinite_of_unpackExponent_ne hne] at h
    cases h
  by_cases hmantissa : @unpackMantissa Format.binary64 x.toModel.toBits.toBitVec = 0#52
  · exact .inr (float_eq_of_unpackMantissa_eq hexponent hmantissa)
  · have hbits := x.toModel.valid.eq_packedNaN hexponent hmantissa
    exact .inl (float_eq_of_toBits (congrArg BitVec.toNat hbits))

end

/-- The word for a double that is not finite is read as that double. -/
theorem readValue_floatText (fuel : Nat) (rest : List Char) {x : Float} (h : x.isFinite = false) :
    readValue (fuel + 1) ((Decimal.floatText numberWords x).toList ++ rest) =
      .ok (.float x, rest) := by
  rcases float_eq_of_not_isFinite h with rfl | rfl | rfl <;> rfl

end Json

end FeedMerge
