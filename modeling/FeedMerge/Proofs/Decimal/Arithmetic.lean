import FeedMerge.Proofs.Decimal.Rounding

/-!
# Arithmetic of doubles

The operations that an average is made of, each with what it gives on numbers: sums, differences and
quotients are numbers near the exact ones unless these are too large, and the double of a count is
the count, or far above one. What is no number stays so under addition and division.
-/

namespace FeedMerge.Double

open Float.Model Float.Model.UnpackedFloat

/-! ### Sums and differences -/

theorem apply_shiftLeft (sign : Sign) (m k : ℕ) (e : ℤ) :
    ((sign.apply (m <<< k : ℕ) : ℤ) : ℚ) * 2 ^ (e - k) = ((sign.apply m : ℤ) : ℚ) * 2 ^ e := by
  have h := shiftLeft_mul_zpow m k e
  cases sign with
  | negative =>
    simp only [Sign.apply, Int.cast_neg, Int.cast_natCast, neg_mul]
    rw [h]
  | positive =>
    simp only [Sign.apply, Int.cast_natCast]
    exact h

variable {u v : UnpackedFloat}

theorem near_add (hu : Near (value u) u) (hv : Near (value v) v) :
    Near (value u + value v) (UnpackedFloat.add Format.binary64 u v) := by
  cases u with
  | notANumber => cases hu.isFinite
  | infinity sign => cases hu.isFinite
  | zero sign =>
    cases v with
    | notANumber => cases hv.isFinite
    | infinity other => cases hv.isFinite
    | zero other =>
      change Near (0 + 0) (if sign == other then .zero sign else .zero .positive)
      rw [add_zero]
      split
      · exact near_zero sign
      · exact near_zero .positive
    | finite other m e hm =>
      rw [show value (.zero sign) = 0 from rfl, zero_add]
      exact hv
  | finite sign m e hm =>
    cases v with
    | notANumber => cases hv.isFinite
    | infinity other => cases hv.isFinite
    | zero other =>
      rw [show value (.zero other) = 0 from rfl, add_zero]
      exact hu
    | finite other n f hn =>
      unfold UnpackedFloat.add decreaseExponent
      dsimp only
      generalize hj : (e - min e f).toNat = j
      generalize hk : (f - min e f).toNat = k
      have he : min e f = e - j := by omega
      have hf : min e f = f - k := by omega
      have hsum : value (.finite sign m e hm) + value (.finite other n f hn) =
          ((sign.apply (m <<< j : ℕ) + other.apply (n <<< k : ℕ) : ℤ) : ℚ) * 2 ^ min e f := by
        rw [value_finite_eq, value_finite_eq, Int.cast_add, add_mul]
        nth_rewrite 1 [he]
        rw [apply_shiftLeft, hf, apply_shiftLeft]
      rw [hsum]
      exact near_normalize _ _ _

theorem sub_eq_add (u v : UnpackedFloat) :
    UnpackedFloat.sub Format.binary64 u v = UnpackedFloat.add Format.binary64 u v.neg := by
  cases u with
  | finite sign m e hm =>
    cases v with
    | finite other n f hn =>
      have happly (a b : ℤ) : a - other.apply b = a + (-other).apply b := by
        cases other with
        | negative => exact sub_neg_eq_add a b
        | positive => exact sub_eq_add_neg a b
      unfold UnpackedFloat.sub UnpackedFloat.add UnpackedFloat.neg
      dsimp only
      rw [happly]
    | _ => rfl
  | _ => cases v <;> rfl

theorem value_neg (v : UnpackedFloat) : value v.neg = -value v := by
  cases v with
  | finite sign m e hm =>
    cases sign with
    | negative =>
      change 1 * (m * 2 ^ e : ℚ) = -(-1 * (m * 2 ^ e))
      ring
    | positive =>
      change -1 * (m * 2 ^ e : ℚ) = -(1 * (m * 2 ^ e))
      ring
  | _ => exact neg_zero.symm

theorem near_neg (hv : Near (value v) v) : Near (value v.neg) v.neg := by
  refine near_self ?_ fun sign m e hm heq => ?_
  · cases v <;> first | rfl | cases hv.isFinite
  · cases v with
    | finite other n f hn =>
      have hcanonical := hv.canonical other n f hn rfl
      cases heq
      exact hcanonical
    | _ => cases heq

theorem near_sub (hu : Near (value u) u) (hv : Near (value v) v) :
    Near (value u - value v) (UnpackedFloat.sub Format.binary64 u v) := by
  rw [sub_eq_add, sub_eq_add_neg, ← value_neg]
  exact near_add hu (near_neg hv)

/-! ### Quotients -/

theorem lt_two_pow_totalExponent (m : ℕ) (e : ℤ) : (m : ℚ) * 2 ^ e < 2 ^ totalExponent m e := by
  have hlog : (m : ℚ) < 2 ^ ((m.log2 : ℤ) + 1) := by
    have : m < 2 ^ (m.log2 + 1) := Nat.lt_log2_self
    exact_mod_cast this
  unfold totalExponent
  rw [zpow_add₀ two_ne_zero]
  exact mul_lt_mul_of_pos_right hlog (zpow_pos e)

theorem approximates_div {a b : ℕ} (hb : 0 < b) (e : ℤ) :
    Approximates ((a : ℚ) / b * 2 ^ e) (a / b) e (accuracyOfFraction (a % b) b) := by
  have hpos := zpow_pos e
  have hb' : (0 : ℚ) < b := Nat.cast_pos.mpr hb
  have hsplit : (a : ℚ) / b = (a / b : ℕ) + (a % b : ℕ) / b := by
    have hdiv : (b : ℚ) * (a / b : ℕ) + (a % b : ℕ) = a := by exact_mod_cast Nat.div_add_mod a b
    rw [← hdiv]
    field_simp
  have hmod : ((a % b : ℕ) : ℚ) / b < 1 := by
    rw [div_lt_one hb']
    exact Nat.cast_lt.mpr (Nat.mod_lt a hb)
  have hnonneg : 0 ≤ ((a % b : ℕ) : ℚ) / b := by positivity
  rw [hsplit]
  unfold accuracyOfFraction
  refine ⟨?_, ?_, ?_, ?_⟩
  · exact mul_le_mul_of_nonneg_right (le_add_of_nonneg_right hnonneg) hpos.le
  · exact mul_lt_mul_of_pos_right (by linarith) hpos
  · intro hexact
    by_cases hzero : a % b = 0
    · rw [hzero, Nat.cast_zero, zero_div, add_zero]
    · rw [if_neg hzero] at hexact
      cases hexact
  · intro hinexact
    by_cases hzero : a % b = 0
    · rw [if_pos hzero] at hinexact
      exact absurd rfl hinexact
    · have hrest : 0 < ((a % b : ℕ) : ℚ) / b :=
        div_pos (Nat.cast_pos.mpr (Nat.pos_of_ne_zero hzero)) hb'
      exact mul_lt_mul_of_pos_right (lt_add_of_pos_right _ hrest) hpos

theorem unit_div (sign other : Sign) : unit (sign / other) = unit sign / unit other := by
  cases sign with
  | negative =>
    cases other with
    | negative => exact (by norm_num : (1 : ℚ) = -1 / -1)
    | positive => exact (by norm_num : (-1 : ℚ) = -1 / 1)
  | positive =>
    cases other with
    | negative => exact (by norm_num : (-1 : ℚ) = 1 / -1)
    | positive => exact (by norm_num : (1 : ℚ) = 1 / 1)

theorem near_div {sign other : Sign} {m n : ℕ} {e f : ℤ} (hm : 0 < m) (hn : 0 < n) :
    Near (value (.finite sign m e hm) / value (.finite other n f hn))
      (UnpackedFloat.div Format.binary64 (.finite sign m e hm) (.finite other n f hn)) := by
  have hn' : (0 : ℚ) < n := Nat.cast_pos.mpr hn
  have hvalue : value (.finite sign m e hm) / value (.finite other n f hn) =
      unit (sign / other) * (m * 2 ^ e / (n * 2 ^ f)) := by
    rw [unit_div, value, value]
    exact mul_div_mul_comm _ _ _ _
  rw [hvalue]
  unfold UnpackedFloat.div divCore
  dsimp only
  rw [targetExponent_eq]
  generalize htarget : min (e - f) (lastPlace (totalExponent m e - totalExponent n f)) = target
  generalize hk : (e - f - target).toNat = k
  have hshifted : (m : ℚ) * 2 ^ e / (n * 2 ^ f) = ((m <<< k : ℕ) : ℚ) / n * 2 ^ target := by
    have hshift := shiftLeft_mul_zpow m k (e - f)
    rw [show e - f - (k : ℤ) = target by omega] at hshift
    rw [div_mul_eq_mul_div, hshift, zpow_sub₀ two_ne_zero]
    field_simp
  have happrox := approximates_div (a := m <<< k) hn target
  rw [← hshifted] at happrox
  apply near_roundWithAccuracy (sign / other) happrox
  refine le_lastPlace (t := totalExponent m e - totalExponent n f) ?_ happrox.lt (by omega)
  -- the quotient of the first places is at most twice the quotient
  have hfirst := two_pow_totalExponent_le hm.ne' e
  have hsecond := (lt_two_pow_totalExponent n f).le
  have hpos : (0 : ℚ) < n * 2 ^ f := mul_pos hn' (zpow_pos f)
  rw [show totalExponent m e - totalExponent n f - 1 =
    (totalExponent m e - 1) - totalExponent n f by omega, zpow_sub₀ two_ne_zero]
  exact div_le_div₀ (hfirst.trans' (zpow_pos _).le) hfirst hpos hsecond

/-! ### Operations on doubles -/

theorem Near.pack {x : ℚ} (h : Near x u) {N : ℤ} (hN : -1021 ≤ N) (hmax : N ≤ 1023)
    (hx : |x| < 2 ^ N) :
    (Float.Model.pack u).unpack.isFinite = true ∧
      |value (Float.Model.pack u).unpack - x| < 2 ^ (N - 53) := by
  have hgreatest : |x| ≤ greatest := by
    have hpow : (2 : ℚ) ^ N ≤ 2 ^ (1023 : ℤ) := zpow_le_zpow_right₀ one_le_two hmax
    have htop : (2 : ℚ) ^ (1023 : ℤ) = 2 ^ 52 * 2 ^ (971 : ℤ) := zpow_add₀ two_ne_zero 52 971
    refine hx.le.trans (hpow.trans ?_)
    rw [htop]
    exact mul_le_mul_of_nonneg_right (by norm_num) (zpow_pos _).le
  obtain ⟨q, T, -, hclose, hplace⟩ := h.close
  rw [h.unpack_pack (h.abs_value_lt hgreatest)]
  exact ⟨h.isFinite, hclose.trans_le (zpow_le_zpow_right₀ one_le_two (hplace N hN hx))⟩

variable {x y : Float}

theorem toRat_add (hx : x.isFinite = true) (hy : y.isFinite = true) {N : ℤ} (hN : -1021 ≤ N)
    (hmax : N ≤ 1023) (h : |toRat x + toRat y| < 2 ^ N) :
    (x + y).isFinite = true ∧ |toRat (x + y) - (toRat x + toRat y)| < 2 ^ (N - 53) :=
  (near_add (near_unpack hx) (near_unpack hy)).pack hN hmax h

theorem toRat_sub (hx : x.isFinite = true) (hy : y.isFinite = true) {N : ℤ} (hN : -1021 ≤ N)
    (hmax : N ≤ 1023) (h : |toRat x - toRat y| < 2 ^ N) :
    (x - y).isFinite = true ∧ |toRat (x - y) - (toRat x - toRat y)| < 2 ^ (N - 53) :=
  (near_sub (near_unpack hx) (near_unpack hy)).pack hN hmax h

theorem isNaN_of_isFinite (hx : x.isFinite = true) : x.isNaN = false := by
  change x.toModel.unpack.isFinite = true at hx
  change x.toModel.unpack.isNaN = false
  cases h : x.toModel.unpack with
  | notANumber =>
    rw [h] at hx
    cases hx
  | _ => rfl

theorem not_isFinite_pack (hu : u.isFinite = false) :
    (Float.Model.pack u).unpack.isFinite = false := by
  cases u with
  | notANumber => decide
  | infinity sign => cases sign <;> decide
  | zero sign => cases hu
  | finite sign m e hm => cases hu

/-- What is no number is not made one by adding to it. -/
theorem not_isFinite_add (hx : x.isFinite = false) : (x + y).isFinite = false := by
  apply not_isFinite_pack
  change x.toModel.unpack.isFinite = false at hx
  cases h : x.toModel.unpack with
  | notANumber => cases y.toModel.unpack <;> rfl
  | infinity sign =>
    cases y.toModel.unpack with
    | infinity other => cases sign <;> cases other <;> rfl
    | _ => rfl
  | _ =>
    rw [h] at hx
    cases hx

theorem not_isFinite_div (hx : x.isFinite = false) : (x / y).isFinite = false := by
  apply not_isFinite_pack
  change x.toModel.unpack.isFinite = false at hx
  cases h : x.toModel.unpack with
  | notANumber => cases y.toModel.unpack <;> rfl
  | infinity sign => cases y.toModel.unpack <;> rfl
  | _ =>
    rw [h] at hx
    cases hx

/-- A number divided by one that is not below one is a number, near the quotient. -/
theorem toRat_div (hx : x.isFinite = true) (hy : y.isFinite = true) (hone : 1 ≤ toRat y) :
    (x / y).isFinite = true ∧ ∀ N : ℤ, -1021 ≤ N → |toRat x / toRat y| < 2 ^ N →
      |toRat (x / y) - toRat x / toRat y| < 2 ^ (N - 53) := by
  have hnear : Near (toRat x / toRat y)
      (UnpackedFloat.div Format.binary64 x.toModel.unpack y.toModel.unpack) := by
    change y.toModel.unpack.isFinite = true at hy
    change x.toModel.unpack.isFinite = true at hx
    unfold toRat at hone ⊢
    cases hv : y.toModel.unpack with
    | finite other n f hn =>
      cases hu : x.toModel.unpack with
      | finite sign m e hm => exact near_div hm hn
      | zero sign =>
        rw [show value (.zero sign) = 0 from rfl, zero_div]
        exact near_zero _
      | _ =>
        rw [hu] at hx
        cases hx
    | _ =>
      rw [hv] at hone
      exact absurd hone (by norm_num [value])
  have hbound : |toRat x / toRat y| ≤ greatest := by
    rw [abs_div, abs_of_nonneg (zero_le_one.trans hone)]
    exact (div_le_self (abs_nonneg _) hone).trans (abs_toRat_le x)
  have hunpack : (x / y).toModel.unpack = _ := hnear.unpack_pack (hnear.abs_value_lt hbound)
  refine ⟨?_, fun N hN h => ?_⟩
  · change (x / y).toModel.unpack.isFinite = true
    rw [hunpack]
    exact hnear.isFinite
  · obtain ⟨q, T, -, hclose, hplace⟩ := hnear.close
    unfold toRat at hclose h hplace ⊢
    rw [hunpack]
    exact hclose.trans_le (zpow_le_zpow_right₀ one_le_two (hplace N hN h))

/-- A number divided by an infinity is zero. -/
theorem isFinite_div_of_infinity (hx : x.isFinite = true) {sign : Sign}
    (hy : y.toModel.unpack = .infinity sign) : (x / y).isFinite = true := by
  have hzero (other : Sign) : (Float.Model.pack (.zero other)).unpack.isFinite = true := by
    cases other <;> decide
  change x.toModel.unpack.isFinite = true at hx
  change (Float.Model.pack (UnpackedFloat.div Format.binary64 x.toModel.unpack
    y.toModel.unpack)).unpack.isFinite = true
  rw [hy]
  cases h : x.toModel.unpack with
  | zero other => exact hzero (other / sign)
  | finite other m e hm => exact hzero (other / sign)
  | _ =>
    rw [h] at hx
    cases hx

/-! ### Counts -/

theorem Near.value_eq {x : ℚ} (h : Near x u) {n : ℤ} (hx : x = n) (hn : |x| < 2 ^ (53 : ℤ)) :
    value u = n := by
  obtain ⟨q, T, hq, hclose, hplace⟩ := h.close
  have hT : T ≤ 0 := by
    have := hplace 53 (by omega) hn
    omega
  -- a whole number is a whole number of units
  have hunits : (n : ℚ) = (n * 2 ^ (-T).toNat : ℤ) * 2 ^ T := by
    have hcancel : (2 : ℚ) ^ ((-T).toNat : ℤ) * 2 ^ T = 1 := by
      rw [← zpow_add₀ two_ne_zero, Int.toNat_of_nonneg (by omega), neg_add_cancel, zpow_zero]
    push_cast
    rw [mul_assoc, ← zpow_natCast, hcancel, mul_one]
  rw [hq, hx, hunits, ← sub_mul, abs_mul, abs_of_pos (zpow_pos T),
    mul_lt_iff_lt_one_left (zpow_pos T), ← Int.cast_sub, ← Int.cast_abs] at hclose
  have hlt : |q - n * 2 ^ (-T).toNat| < 1 := by exact_mod_cast hclose
  rw [hq, hunits, sub_eq_zero.mp (Int.abs_lt_one_iff.mp hlt)]

theorem near_mul_one {sign : Sign} {m : ℕ} {e : ℤ} (hm : 0 < m) (hone : 0 < 2 ^ 52) :
    Near (value (.finite sign m e hm)) (UnpackedFloat.mul Format.binary64 (.finite sign m e hm)
      (.finite .positive (2 ^ 52) (-52) hone)) := by
  have hsign : sign * .positive = sign := by cases sign <;> rfl
  have hscale : ((m * 2 ^ 52 : ℕ) : ℚ) * 2 ^ (e + -52) = m * 2 ^ e := by
    have hcancel : ((2 ^ 52 : ℕ) : ℚ) * 2 ^ (-52 : ℤ) = 1 := by norm_num
    rw [zpow_add₀ two_ne_zero, mul_comm ((2 : ℚ) ^ e), ← mul_assoc, Nat.cast_mul,
      mul_assoc (m : ℚ), hcancel, mul_one]
  unfold UnpackedFloat.mul
  dsimp only
  rw [hsign, value, ← hscale]
  apply near_roundWithAccuracy sign (approximates_exact _ _)
  refine le_lastPlace (t := totalExponent m e) ?_ (approximates_exact _ _).lt ?_
  · rw [hscale]
    exact two_pow_totalExponent_le hm.ne' e
  · unfold lastPlace totalExponent
    omega

theorem unpack_mul (x y : Float) : (x * y).toModel.unpack = (Float.Model.pack
    (UnpackedFloat.mul Format.binary64 x.toModel.unpack y.toModel.unpack)).unpack := rfl

theorem unpack_one : (Float.ofBits 0x3FF0000000000000).toModel.unpack =
    .finite .positive (2 ^ 52) (-52) (by decide) := rfl

theorem natCast_lt_two_pow {n : ℕ} (hlt : n < 2 ^ 53) : |(n : ℚ)| < 2 ^ (53 : ℤ) := by
  rw [Nat.abs_cast]
  exact_mod_cast hlt

theorem near_normalize_natCast (n : ℕ) :
    Near n (UnpackedFloat.normalize Format.binary64 n 0 .positive) := by
  have hnear := near_normalize n 0 .positive
  rw [zpow_zero, mul_one] at hnear
  exact hnear

/-- A number near a count that is not too large is the count, and stays so when it is packed. -/
theorem Near.unpack_pack_natCast {n : ℕ} (h : Near n u) (hlt : n < 2 ^ 53) :
    (Float.Model.pack u).unpack = u ∧ value u = n := by
  have hcount := natCast_lt_two_pow hlt
  have hvalue : value u = n := h.value_eq rfl hcount
  have htop : |value u| < 2 ^ (1024 : ℤ) := by
    rw [hvalue]
    exact hcount.trans_le (zpow_le_zpow_right₀ one_le_two (by omega))
  exact ⟨h.unpack_pack htop, hvalue⟩

theorem unpack_toUInt64 {n : ℕ} (hlt : n < 2 ^ 53) : n.toUInt64.toFloat.toModel.unpack =
    UnpackedFloat.normalize Format.binary64 n 0 .positive := by
  have hnat : n.toUInt64.toNat = n := by
    rw [Nat.toUInt64, UInt64.toNat_ofNat', Nat.mod_eq_of_lt (by omega)]
  change (Float.Model.pack (UnpackedFloat.normalize Format.binary64 (n.toUInt64.toNat : ℤ) 0
    .positive)).unpack = _
  rw [hnat]
  exact ((near_normalize_natCast n).unpack_pack_natCast hlt).1

/-- The double of a count that is not too large is the count. -/
theorem toRat_ofNat_of_lt {n : ℕ} (hn : 0 < n) (hlt : n < 2 ^ 53) :
    (Float.ofNat n).isFinite = true ∧ toRat (Float.ofNat n) = n := by
  have hof : Float.ofNat n = n.toUInt64.toFloat * Float.ofBits 0x3FF0000000000000 := by
    change Float.ofScientific n false 0 = _
    unfold Float.ofScientific
    rw [dif_pos ⟨hlt, by decide⟩]
    rfl
  have hvalue := ((near_normalize_natCast n).unpack_pack_natCast hlt).2
  change (Float.ofNat n).toModel.unpack.isFinite = true ∧ value (Float.ofNat n).toModel.unpack = n
  rw [hof, unpack_mul, unpack_toUInt64 hlt, unpack_one]
  cases hu : UnpackedFloat.normalize Format.binary64 n 0 .positive with
  | finite sign m e hm =>
    rw [hu] at hvalue
    have hproduct := @near_mul_one sign m e hm (by decide)
    rw [hvalue] at hproduct
    obtain ⟨hpack, hproductValue⟩ := hproduct.unpack_pack_natCast hlt
    rw [hpack]
    exact ⟨hproduct.isFinite, hproductValue⟩
  | _ =>
    rw [hu] at hvalue
    have hzero : (0 : ℚ) = n := hvalue
    have : n = 0 := by exact_mod_cast hzero.symm
    omega

theorem near_ofScientific {n : ℕ} (hn : 0 < n) :
    Near n (UnpackedFloat.ofScientific Format.binary64 n 0) := by
  have hsmall : (0 : ℤ) ≤ 2 ^ Format.binary64.exponentBits + n.log2 := by positivity
  have hbits : Format.binary64.mantissaBits = 53 := rfl
  have hscale : ((n <<< 53 * 1 : ℕ) : ℚ) * 2 ^ (-(53 : ℕ) + 0 : ℤ) = n := by
    have h := shiftLeft_mul_zpow n 53 0
    rw [zpow_zero, mul_one, zero_sub] at h
    rw [mul_one, add_zero]
    exact h
  unfold UnpackedFloat.ofScientific
  rw [dif_neg hn.ne', if_neg (by decide), if_neg (by omega), if_pos le_rfl]
  unfold UnpackedFloat.mul
  dsimp only
  rw [hbits, Int.toNat_zero, pow_zero]
  have hnear := near_roundWithAccuracy (.positive * .positive)
    (approximates_exact (n <<< 53 * 1) (-(53 : ℕ) + 0)) (le_lastPlace (t := n.log2 + 1) ?_
      (approximates_exact _ _).lt ?_)
  · rw [hscale] at hnear
    have hone : unit (.positive * .positive) * (n : ℚ) = n := one_mul _
    rwa [hone] at hnear
  · rw [hscale, add_sub_cancel_right, zpow_natCast]
    exact_mod_cast Nat.log2_self_le hn.ne'
  · unfold lastPlace
    omega

theorem ofNat_of_le {n : ℕ} (hle : 2 ^ 53 ≤ n) :
    Float.ofNat n = .ofModel (.pack (UnpackedFloat.ofScientific Format.binary64 n 0)) := by
  change Float.ofScientific n false 0 = _
  unfold Float.ofScientific
  rw [dif_neg (fun h => by omega)]
  rfl

/-- The double of a count that is too large for it to be the count is still far above one, unless it
is infinite. -/
theorem ofNat_cases_of_le {n : ℕ} (hle : 2 ^ 53 ≤ n) :
    ((Float.ofNat n).isFinite = true ∧ 1 ≤ toRat (Float.ofNat n)) ∨
      ∃ sign, (Float.ofNat n).toModel.unpack = .infinity sign := by
  have hn : 0 < n := by omega
  have hnear := near_ofScientific hn
  rw [ofNat_of_le hle]
  refine hnear.unpack_pack_cases.imp (fun hpack => ?_) id
  change (Float.Model.pack _).unpack.isFinite = true ∧ 1 ≤ value (Float.Model.pack _).unpack
  rw [hpack]
  refine ⟨hnear.isFinite, ?_⟩
  obtain ⟨q, T, -, hclose, hplace⟩ := hnear.close
  have hlog : (2 : ℚ) ^ (n.log2 : ℤ) ≤ n := by
    rw [zpow_natCast]
    exact_mod_cast Nat.log2_self_le hn.ne'
  have hT : T ≤ (n.log2 + 1 : ℤ) - 53 := by
    refine hplace _ (by omega) ?_
    rw [Nat.abs_cast]
    exact_mod_cast Nat.lt_log2_self
  have hunit : (2 : ℚ) ^ T * 2 ≤ n := by
    rw [← zpow_add_one₀ two_ne_zero]
    exact (zpow_le_zpow_right₀ one_le_two (by omega)).trans hlog
  have htwo : (2 : ℚ) ≤ n := by
    have : 2 ≤ n := by omega
    exact_mod_cast this
  have hbelow := (abs_lt.mp hclose).1
  linarith

theorem isFinite_neg (hx : x.isFinite = true) : (-x).isFinite = true := by
  have hnear := near_neg (near_unpack hx)
  have hbound : |value x.toModel.unpack.neg| ≤ greatest := by
    rw [value_neg, abs_neg]
    exact abs_toRat_le x
  change (Float.Model.pack x.toModel.unpack.neg).unpack.isFinite = true
  rw [hnear.unpack_pack (hnear.abs_value_lt hbound)]
  exact hnear.isFinite

/-- The double of a count of up to 1023 binary digits is a number. -/
theorem isFinite_ofNat {n k : ℕ} (hk : k ≤ 1023) (hlt : n < 2 ^ k) :
    (Float.ofNat n).isFinite = true := by
  rcases Nat.eq_zero_or_pos n with rfl | hn
  · decide
  · by_cases hsmall : n < 2 ^ 53
    · exact (toRat_ofNat_of_lt hn hsmall).1
    · rw [ofNat_of_le (Nat.le_of_not_lt hsmall)]
      have hbound : |(n : ℚ)| < 2 ^ (k : ℤ) := by
        rw [Nat.abs_cast]
        exact_mod_cast hlt
      exact ((near_ofScientific hn).pack (by omega) (by omega) hbound).1

end FeedMerge.Double
