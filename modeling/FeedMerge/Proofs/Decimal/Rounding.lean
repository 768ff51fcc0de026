import Mathlib

/-!
# Rounding to doubles

A double stands for a rational number (`toRat`). An operation on doubles first finds a mantissa that
approximates the exact result from below (`Approximates`), shifts it to the last place of a double
and rounds it there. What comes out is `Near` the exact result: less than a unit in its last place
away, and this unit is no more than what the magnitude of the result calls for. Nothing here depends
on how ties are broken, so a unit is all that is promised, not half of one.

Numbers with as many bits as a double has are not changed when they are packed, as long as they are
not above the greatest double (`Near.unpack_pack`).
-/

namespace FeedMerge.Double

open Float.Model Float.Model.UnpackedFloat

/-- One with a sign. -/
def unit : Sign → ℚ
  | .negative => -1
  | .positive => 1

theorem abs_unit_mul (sign : Sign) (x : ℚ) : |unit sign * x| = |x| := by
  cases sign <;> simp [unit]

theorem unit_mul_natCast (sign : Sign) (m : ℕ) (e : ℤ) :
    unit sign * (m * 2 ^ e) = ((sign.apply m : ℤ) : ℚ) * 2 ^ e := by
  cases sign <;> simp [unit, Sign.apply]

/-- The number that an unpacked double stands for; nothing but numbers is meant. -/
def value : UnpackedFloat → ℚ
  | .finite sign mantissa exponent _ => unit sign * (mantissa * 2 ^ exponent)
  | _ => 0

/-- The number that a double stands for, if it is one. -/
def toRat (x : Float) : ℚ := value x.toModel.unpack

/-! ### Where the last place is -/

/-- The exponent of the last place of a double whose first place has the exponent below the given
one. -/
def lastPlace (total : ℤ) : ℤ := max (total - 53) (-1074)

theorem targetExponent_eq (total : ℤ) : Format.binary64.targetExponent total = lastPlace total := rfl

/-- As many bits as a double has, and no more than are needed unless it is subnormal. -/
structure Canonical (mantissa : ℕ) (exponent : ℤ) : Prop where
  lt : mantissa < 2 ^ 53
  low : -1074 ≤ exponent
  full : exponent = -1074 ∨ 2 ^ 52 ≤ mantissa

/-- A mantissa is a number from below, up to one unit, and exactly if the accuracy says so. -/
structure Approximates (x : ℚ) (mantissa : ℕ) (exponent : ℤ) (accuracy : Accuracy) : Prop where
  le : mantissa * 2 ^ exponent ≤ x
  lt : x < (mantissa + 1) * 2 ^ exponent
  exact : accuracy = .exact → x = mantissa * 2 ^ exponent
  inexact : accuracy ≠ .exact → mantissa * 2 ^ exponent < x

theorem zpow_pos (e : ℤ) : (0 : ℚ) < 2 ^ e := by positivity

theorem mantissa_shiftRight (em : ExtendedMantissa) (k : ℕ) :
    (em >>> k).mantissa = em.mantissa / 2 ^ k := by
  change (Nat.repeat ExtendedMantissa.shiftRightOne k em).mantissa = _
  induction k with
  | zero => simp [Nat.repeat]
  | succ k ih =>
    rw [Nat.repeat, ExtendedMantissa.shiftRightOne]
    dsimp only
    rw [ih, Nat.div_div_eq_div_mul, pow_succ]

/-- Nothing is lost of a mantissa that can be divided. -/
theorem accuracy_shiftRight_exact (m k : ℕ) (hk : 2 ^ k ∣ m) :
    ((ExtendedMantissa.mk m false false) >>> k) = ⟨m / 2 ^ k, false, false⟩ := by
  change Nat.repeat ExtendedMantissa.shiftRightOne k (ExtendedMantissa.mk m false false) = _
  induction k with
  | zero => simp [Nat.repeat]
  | succ k ih =>
    obtain ⟨n, rfl⟩ := hk
    rw [Nat.repeat, ih ⟨2 * n, by ring⟩, ExtendedMantissa.shiftRightOne]
    have hdiv : 2 ^ (k + 1) * n / 2 ^ k = 2 * n := by
      rw [pow_succ, mul_assoc, Nat.mul_div_cancel_left _ (by positivity)]
    have hdivs : 2 ^ (k + 1) * n / 2 ^ (k + 1) = n := Nat.mul_div_cancel_left _ (by positivity)
    simp [hdiv, hdivs]

theorem roundedMantissa_cases (em : ExtendedMantissa) :
    em.roundedMantissa = em.mantissa ∨ em.roundedMantissa = em.mantissa + 1 := by
  obtain ⟨m, _ | _, _ | _⟩ := em
  · exact .inl rfl
  · exact .inl rfl
  · change m + m % 2 = m ∨ m + m % 2 = m + 1
    omega
  · exact .inr rfl

theorem mantissa_ofMantissaAndAccuracy (m : ℕ) (a : Accuracy) :
    (ExtendedMantissa.ofMantissaAndAccuracy m a).mantissa = m := by
  cases a with
  | exact => rfl
  | inexact order => cases order <;> rfl

theorem two_zpow_add_natCast (e : ℤ) (k : ℕ) : (2 : ℚ) ^ (e + k) = 2 ^ k * 2 ^ e := by
  rw [zpow_add₀ two_ne_zero, zpow_natCast, mul_comm]

theorem div_two_pow_mul_le (m k : ℕ) (e : ℤ) :
    ((m / 2 ^ k : ℕ) : ℚ) * 2 ^ (e + k) ≤ m * 2 ^ e := by
  have hle : m / 2 ^ k * 2 ^ k ≤ m := Nat.div_mul_le_self m _
  have hcast : ((m / 2 ^ k : ℕ) : ℚ) * 2 ^ k ≤ m := by exact_mod_cast hle
  rw [two_zpow_add_natCast, ← mul_assoc]
  exact mul_le_mul_of_nonneg_right hcast (zpow_pos e).le

theorem le_div_two_pow_mul (m k : ℕ) (e : ℤ) :
    (m + 1) * 2 ^ e ≤ (((m / 2 ^ k : ℕ) : ℚ) + 1) * 2 ^ (e + k) := by
  have hlt : m < (m / 2 ^ k + 1) * 2 ^ k := by
    rw [mul_comm]
    exact Nat.lt_mul_div_succ m (by positivity)
  have hcast : (m : ℚ) + 1 ≤ ((m / 2 ^ k : ℕ) + 1) * 2 ^ k := by exact_mod_cast hlt
  rw [two_zpow_add_natCast, ← mul_assoc]
  exact mul_le_mul_of_nonneg_right hcast (zpow_pos e).le

/-- A mantissa is only rounded up if something was lost by shifting it. -/
theorem Approximates.div_two_pow_mul_lt {x : ℚ} {m : ℕ} {e : ℤ} {a : Accuracy}
    (h : Approximates x m e a) {k : ℕ}
    (hup : (ExtendedMantissa.ofMantissaAndAccuracy m a >>> k).roundedMantissa ≠ m / 2 ^ k) :
    ((m / 2 ^ k : ℕ) : ℚ) * 2 ^ (e + k) < x := by
  refine lt_of_le_of_ne ((div_two_pow_mul_le m k e).trans h.le) fun heq => hup ?_
  have hm : m * 2 ^ e = x := le_antisymm h.le (heq ▸ div_two_pow_mul_le m k e)
  have ha : a = .exact := by
    by_contra hne
    exact (h.inexact hne).ne hm
  have hdvd : 2 ^ k ∣ m := by
    have hmul := heq.trans hm.symm
    rw [two_zpow_add_natCast, ← mul_assoc] at hmul
    have hcast := mul_right_cancel₀ (zpow_pos e).ne' hmul
    exact Dvd.intro_left (m / 2 ^ k) (by exact_mod_cast hcast)
  have hexact : ExtendedMantissa.ofMantissaAndAccuracy m .exact >>> k =
      ⟨m / 2 ^ k, false, false⟩ := accuracy_shiftRight_exact m k hdvd
  rw [ha, hexact]
  rfl

/-- A shifted and rounded mantissa is less than a unit away. -/
theorem abs_roundedMantissa_sub_lt {x : ℚ} {m : ℕ} {e : ℤ} {a : Accuracy}
    (h : Approximates x m e a) (k : ℕ) :
    |((ExtendedMantissa.ofMantissaAndAccuracy m a >>> k).roundedMantissa : ℚ) * 2 ^ (e + k) - x| <
      2 ^ (e + k) := by
  have hbelow := (div_two_pow_mul_le m k e).trans h.le
  have habove := h.lt.trans_le (le_div_two_pow_mul m k e)
  have hunit := zpow_pos (e + k)
  have hcases := roundedMantissa_cases (ExtendedMantissa.ofMantissaAndAccuracy m a >>> k)
  rw [mantissa_shiftRight, mantissa_ofMantissaAndAccuracy] at hcases
  rcases hcases with hq | hq
  · rw [hq, abs_lt]
    constructor <;> linarith
  · have hlost := h.div_two_pow_mul_lt (show _ ≠ m / 2 ^ k by omega)
    rw [hq, abs_lt]
    push_cast
    constructor <;> linarith

/-! ### Rounding -/

/-- An unpacked number is near another one: less than a unit in its last place away, which is no
more than what the magnitude of the other number calls for. -/
structure Near (x : ℚ) (u : UnpackedFloat) : Prop where
  isFinite : u.isFinite = true
  canonical : ∀ sign m e hm, u = .finite sign m e hm → Canonical m e
  close : ∃ q T : ℤ, value u = q * 2 ^ T ∧ |value u - x| < 2 ^ T ∧
    ∀ N : ℤ, -1021 ≤ N → |x| < 2 ^ N → T ≤ N - 53

theorem shiftToTargetExponent_of_le {m : ℕ} {e : ℤ} (a : Accuracy)
    (h : e ≤ lastPlace (totalExponent m e)) :
    shiftToTargetExponent Format.binary64 m e a =
      (ExtendedMantissa.ofMantissaAndAccuracy m a >>> (lastPlace (totalExponent m e) - e).toNat,
        lastPlace (totalExponent m e)) := by
  unfold shiftToTargetExponent shiftToExponent
  dsimp only
  rw [targetExponent_eq, Int.toNat_of_nonneg (by omega), add_sub_cancel]

theorem shiftToTargetExponent_of_lt {q : ℕ} {T : ℤ} (hq : q < 2 ^ 53) (hT : -1074 ≤ T) :
    shiftToTargetExponent Format.binary64 q T .exact = (⟨q, false, false⟩, T) := by
  have hlog : q.log2 < 53 := by
    by_cases hzero : q = 0
    · rw [hzero]
      decide
    · exact (Nat.log2_lt hzero).mpr hq
  have hshift : (lastPlace (totalExponent q T) - T).toNat = 0 := by
    unfold lastPlace totalExponent
    omega
  unfold shiftToTargetExponent shiftToExponent
  dsimp only
  rw [targetExponent_eq, hshift, Nat.cast_zero, add_zero]
  rfl

theorem shiftToTargetExponent_two_pow {T : ℤ} (hT : -1074 ≤ T) :
    shiftToTargetExponent Format.binary64 (2 ^ 53) T .exact =
      (⟨2 ^ 52, false, false⟩, T + 1) := by
  have hshift : (lastPlace (totalExponent (2 ^ 53) T) - T).toNat = 1 := by
    unfold lastPlace totalExponent
    rw [Nat.log2_two_pow]
    omega
  unfold shiftToTargetExponent shiftToExponent
  dsimp only
  rw [targetExponent_eq, hshift]
  rfl

/-- A nonempty mantissa has its first place below the number that it approximates. -/
theorem totalExponent_le {x : ℚ} {m : ℕ} {e N : ℤ} (hm : m ≠ 0) (hle : m * 2 ^ e ≤ x)
    (hx : x < 2 ^ N) : totalExponent m e ≤ N := by
  have hlog : (2 : ℚ) ^ (m.log2 : ℤ) ≤ m := by
    rw [zpow_natCast]
    exact_mod_cast Nat.log2_self_le hm
  have hfirst : (2 : ℚ) ^ ((m.log2 : ℤ) + e) ≤ m * 2 ^ e := by
    rw [zpow_add₀ two_ne_zero]
    exact mul_le_mul_of_nonneg_right hlog (zpow_pos e).le
  have hlt : (m.log2 : ℤ) + e < N :=
    (zpow_lt_zpow_iff_right₀ one_lt_two).mp (hfirst.trans_lt (hle.trans_lt hx))
  unfold totalExponent
  omega

theorem lastPlace_le {x : ℚ} {m : ℕ} {e N : ℤ} {a : Accuracy} (h : Approximates x m e a)
    (he : e ≤ lastPlace (totalExponent m e)) (hN : -1021 ≤ N) (hx : x < 2 ^ N) :
    lastPlace (totalExponent m e) ≤ N - 53 := by
  by_cases hm : m = 0
  · have hlog : m.log2 = 0 := by rw [hm]; decide
    unfold lastPlace totalExponent at he ⊢
    rw [hlog] at he ⊢
    omega
  · have htotal := totalExponent_le hm h.le hx
    unfold lastPlace
    omega

/-- The mantissa that is left has as many bits as a double has. -/
theorem div_two_pow_bounds {m : ℕ} {e : ℤ} (he : e ≤ lastPlace (totalExponent m e)) :
    m / 2 ^ (lastPlace (totalExponent m e) - e).toNat < 2 ^ 53 ∧
      (lastPlace (totalExponent m e) = -1074 ∨
        2 ^ 52 ≤ m / 2 ^ (lastPlace (totalExponent m e) - e).toNat) := by
  have hlt : m < 2 ^ (m.log2 + 1) := Nat.lt_log2_self
  generalize hk : (lastPlace (totalExponent m e) - e).toNat = k
  have hbits : m.log2 + 1 ≤ 53 + k := by
    unfold lastPlace totalExponent at hk he
    omega
  constructor
  · rw [Nat.div_lt_iff_lt_mul (by positivity), ← pow_add]
    exact hlt.trans_le (Nat.pow_le_pow_right (by decide) hbits)
  · by_cases hlow : lastPlace (totalExponent m e) = -1074
    · exact .inl hlow
    · have hfull : 52 + k = m.log2 := by
        unfold lastPlace totalExponent at hk he hlow
        omega
      have hm : m ≠ 0 := by
        rintro rfl
        rw [show Nat.log2 0 = 0 by decide] at hfull
        omega
      refine .inr ?_
      rw [Nat.le_div_iff_mul_le (by positivity), ← pow_add, hfull]
      exact Nat.log2_self_le hm

/-- The number with a mantissa, which may be zero. -/
def ofMantissa (sign : Sign) (m : ℕ) (e : ℤ) : UnpackedFloat :=
  if h : m = 0 then .zero sign else .finite sign m e (Nat.pos_of_ne_zero h)

theorem value_ofMantissa (sign : Sign) (m : ℕ) (e : ℤ) :
    value (ofMantissa sign m e) = unit sign * (m * 2 ^ e) := by
  unfold ofMantissa
  by_cases hm : m = 0
  · rw [dif_pos hm, hm, Nat.cast_zero, zero_mul, mul_zero]
    rfl
  · rw [dif_neg hm]
    rfl

theorem near_ofMantissa {x : ℚ} {sign : Sign} {m : ℕ} {e q T : ℤ} (h : Canonical m e)
    (hunits : unit sign * (m * 2 ^ e) = q * 2 ^ T) (hclose : |q * 2 ^ T - x| < 2 ^ T)
    (hplace : ∀ N : ℤ, -1021 ≤ N → |x| < 2 ^ N → T ≤ N - 53) : Near x (ofMantissa sign m e) := by
  refine ⟨?_, ?_, q, T, ?_, ?_, hplace⟩
  · unfold ofMantissa
    split <;> rfl
  · intro sign' m' e' hm' heq
    unfold ofMantissa at heq
    split at heq
    · cases heq
    · cases heq
      exact h
  · rw [value_ofMantissa, hunits]
  · rw [value_ofMantissa, hunits]
    exact hclose

/-- Rounding gives a double near the number. -/
theorem near_roundWithAccuracy {x : ℚ} {m : ℕ} {e : ℤ} {a : Accuracy} (sign : Sign)
    (h : Approximates x m e a) (he : e ≤ lastPlace (totalExponent m e)) :
    Near (unit sign * x) (roundWithAccuracy Format.binary64 sign m e a) := by
  have hplace (N : ℤ) (hN : -1021 ≤ N) (hx : |unit sign * x| < 2 ^ N) :=
    lastPlace_le h he hN ((le_abs_self x).trans_lt (abs_unit_mul sign x ▸ hx))
  have hclose := abs_roundedMantissa_sub_lt h (lastPlace (totalExponent m e) - e).toNat
  rw [Int.toNat_of_nonneg (by omega), add_sub_cancel] at hclose
  obtain ⟨hsmall, hfull⟩ := div_two_pow_bounds he
  have hlow : -1074 ≤ lastPlace (totalExponent m e) := by
    unfold lastPlace
    omega
  have hcases := roundedMantissa_cases
    (ExtendedMantissa.ofMantissaAndAccuracy m a >>> (lastPlace (totalExponent m e) - e).toNat)
  rw [mantissa_shiftRight, mantissa_ofMantissaAndAccuracy] at hcases
  unfold roundWithAccuracy
  rw [shiftToTargetExponent_of_le a he]
  dsimp only
  generalize (ExtendedMantissa.ofMantissaAndAccuracy m a >>>
    (lastPlace (totalExponent m e) - e).toNat).roundedMantissa = q at hclose hcases ⊢
  generalize lastPlace (totalExponent m e) = T at *
  have hunit : |((sign.apply q : ℤ) : ℚ) * 2 ^ T - unit sign * x| < 2 ^ T := by
    rw [← unit_mul_natCast, ← mul_sub, abs_unit_mul]
    exact hclose
  by_cases hq : q < 2 ^ 53
  · rw [shiftToTargetExponent_of_lt hq hlow]
    have hcanonical : Canonical q T := ⟨hq, hlow, hfull.imp id fun hle => by omega⟩
    exact near_ofMantissa hcanonical (unit_mul_natCast sign q T) hunit hplace
  · -- rounding up has made one place more
    obtain rfl : q = 2 ^ 53 := by omega
    rw [shiftToTargetExponent_two_pow hlow]
    have hcanonical : Canonical (2 ^ 52) (T + 1) := ⟨by decide, by omega, .inr le_rfl⟩
    refine near_ofMantissa hcanonical ?_ hunit hplace
    rw [← unit_mul_natCast, zpow_add₀ two_ne_zero]
    push_cast
    ring

theorem approximates_exact (m : ℕ) (e : ℤ) : Approximates (m * 2 ^ e) m e .exact where
  le := le_rfl
  lt := by
    have := zpow_pos e
    linarith
  exact _ := rfl
  inexact h := absurd rfl h

/-- A mantissa with an exponent that is not above the last place of a double has enough bits. -/
theorem le_lastPlace {x : ℚ} {m : ℕ} {e t : ℤ} (hx : 2 ^ (t - 1) ≤ x)
    (hlt : x < (m + 1) * 2 ^ e) (he : e ≤ lastPlace t) : e ≤ lastPlace (totalExponent m e) := by
  by_cases hlow : e ≤ -1074
  · unfold lastPlace
    omega
  · have ht : e + 52 ≤ t - 1 := by
      unfold lastPlace at he
      omega
    have hpow : (2 : ℚ) ^ (52 : ℤ) * 2 ^ e < (m + 1) * 2 ^ e := by
      rw [← zpow_add₀ two_ne_zero, add_comm]
      exact ((zpow_le_zpow_right₀ one_le_two ht).trans hx).trans_lt hlt
    have hm : 2 ^ 52 ≤ m := by
      have hcast : ((2 ^ 52 : ℕ) : ℚ) < ((m + 1 : ℕ) : ℚ) := by
        push_cast
        exact lt_of_mul_lt_mul_right hpow (zpow_pos e).le
      have := Nat.cast_lt.mp hcast
      omega
    have hlog : 52 ≤ m.log2 := (Nat.le_log2 (by omega)).mpr hm
    unfold lastPlace totalExponent
    omega

theorem two_pow_totalExponent_le {m : ℕ} (hm : m ≠ 0) (e : ℤ) :
    (2 : ℚ) ^ (totalExponent m e - 1) ≤ m * 2 ^ e := by
  have hlog : (2 : ℚ) ^ (m.log2 : ℤ) ≤ m := by
    rw [zpow_natCast]
    exact_mod_cast Nat.log2_self_le hm
  have htotal : totalExponent m e - 1 = m.log2 + e := by
    unfold totalExponent
    omega
  rw [htotal, zpow_add₀ two_ne_zero]
  exact mul_le_mul_of_nonneg_right hlog (zpow_pos e).le

theorem shiftLeft_mul_zpow (m k : ℕ) (e : ℤ) :
    ((m <<< k : ℕ) : ℚ) * 2 ^ (e - k) = m * 2 ^ e := by
  rw [Nat.shiftLeft_eq, zpow_sub₀ two_ne_zero, zpow_natCast]
  push_cast
  field_simp

theorem near_round {m : ℕ} {e : ℤ} (sign : Sign) (hm : m ≠ 0) :
    Near (unit sign * (m * 2 ^ e)) (round Format.binary64 sign m e) := by
  unfold UnpackedFloat.round decreaseExponent
  dsimp only
  rw [targetExponent_eq]
  generalize hk : (e - lastPlace (totalExponent m e)).toNat = k
  rw [← shiftLeft_mul_zpow m k e]
  apply near_roundWithAccuracy sign (approximates_exact _ _)
  refine le_lastPlace (t := totalExponent m e) ?_ (approximates_exact _ _).lt (by omega)
  rw [shiftLeft_mul_zpow]
  exact two_pow_totalExponent_le hm e

theorem near_zero (sign : Sign) : Near 0 (.zero sign) :=
  ⟨rfl, nofun, 0, -1074, by simp [value], by simp [value], fun N hN _ => by omega⟩

theorem near_normalize (m e : ℤ) (sign : Sign) :
    Near (m * 2 ^ e) (normalize Format.binary64 m e sign) := by
  unfold UnpackedFloat.normalize
  rcases lt_trichotomy m 0 with hm | hm | hm
  · rw [compare_lt_iff_lt.mpr hm]
    have hcast : ((m : ℤ) : ℚ) * 2 ^ e = unit .negative * (((-m).toNat : ℕ) * 2 ^ e) := by
      have hnat : (((-m).toNat : ℕ) : ℤ) = -m := Int.toNat_of_nonneg (by omega)
      have : (((-m).toNat : ℕ) : ℚ) = -m := by exact_mod_cast hnat
      rw [this, unit]
      ring
    rw [hcast]
    exact near_round .negative (by omega)
  · subst hm
    rw [compare_eq_iff_eq.mpr rfl]
    simpa using near_zero sign
  · rw [compare_gt_iff_gt.mpr hm]
    have hcast : ((m : ℤ) : ℚ) * 2 ^ e = unit .positive * ((m.toNat : ℕ) * 2 ^ e) := by
      have hnat : ((m.toNat : ℕ) : ℤ) = m := Int.toNat_of_nonneg (by omega)
      have : ((m.toNat : ℕ) : ℚ) = m := by exact_mod_cast hnat
      rw [this, unit, one_mul]
    rw [hcast]
    exact near_round .positive (by omega)

/-! ### Packing -/

theorem canonical_unpack {b : BitVec Format.binary64.numBits} {sign : Sign} {m : ℕ} {e : ℤ}
    {hm : 0 < m} (h : unpack Format.binary64 b = .finite sign m e hm) : Canonical m e ∧ e ≤ 971 := by
  have hbias : (Format.binary64.exponentBias : ℤ) + (52 : ℕ) = 1075 := by decide
  unfold UnpackedFloat.unpack at h
  dsimp only at h
  by_cases htop : @unpackExponent Format.binary64 b = -1#11
  · rw [if_pos htop] at h
    by_cases hinf : @unpackMantissa Format.binary64 b = 0#52
    · rw [if_pos hinf] at h
      cases h
    · rw [if_neg hinf] at h
      cases h
  · rw [if_neg htop] at h
    have hexponent : (@unpackExponent Format.binary64 b).toNat < 2 ^ 11 := BitVec.isLt _
    have hmantissa : (@unpackMantissa Format.binary64 b).toNat < 2 ^ 52 := BitVec.isLt _
    by_cases hlow : @unpackExponent Format.binary64 b = 0#11
    · rw [if_pos hlow] at h
      by_cases hzero : @unpackMantissa Format.binary64 b = 0#52
      · rw [dif_pos hzero] at h
        cases h
      · rw [dif_neg hzero, hlow] at h
        cases h
        exact ⟨⟨by omega, by decide, .inl (by decide)⟩, by decide⟩
    · rw [if_neg hlow] at h
      have htop' : (@unpackExponent Format.binary64 b).toNat ≠ 2 ^ 11 - 1 := by
        intro heq
        exact htop (BitVec.eq_of_toNat_eq heq)
      have hlow' : (@unpackExponent Format.binary64 b).toNat ≠ 0 := by
        intro heq
        exact hlow (BitVec.eq_of_toNat_eq heq)
      have hvalue : (1#1 ++ @unpackMantissa Format.binary64 b).toNat =
          2 ^ 52 + (@unpackMantissa Format.binary64 b).toNat := by
        rw [BitVec.toNat_append, ← Nat.shiftLeft_add_eq_or_of_lt hmantissa]
        rfl
      cases h
      exact ⟨⟨by omega, by omega, .inr (by omega)⟩, by omega⟩

theorem unpack_packComponents_normal (sign : Sign) {E : BitVec 11} (M : BitVec 52) (hzero : E ≠ 0#11)
    (htop : E ≠ -1#11) :
    ∃ hm, unpack Format.binary64 (packComponents Format.binary64 sign E M) =
      .finite sign (2 ^ 52 + M.toNat) (E.toNat - 1075) hm := by
  have hM : M.toNat < 2 ^ 52 := M.isLt
  have hvalue : (1#1 ++ M).toNat = 2 ^ 52 + M.toNat := by
    rw [BitVec.toNat_append, ← Nat.shiftLeft_add_eq_or_of_lt hM]
    rfl
  refine ⟨by omega, ?_⟩
  unfold UnpackedFloat.unpack
  simp only [unpackExponent_packComponents, unpackMantissa_packComponents,
    unpackSign_packComponents, Sign.ofBitVec_toBitVec]
  rw [if_neg htop, if_neg hzero]
  congr 1

theorem unpack_packComponents_subnormal (sign : Sign) {M : BitVec 52} (hM : M ≠ 0#52) :
    ∃ hm, unpack Format.binary64 (packComponents Format.binary64 sign 0#11 M) =
      .finite sign M.toNat (-1074) hm := by
  have hpos : 0 < M.toNat := Nat.pos_of_ne_zero fun hzero => hM (BitVec.eq_of_toNat_eq hzero)
  refine ⟨hpos, ?_⟩
  unfold UnpackedFloat.unpack
  simp only [unpackExponent_packComponents, unpackMantissa_packComponents,
    unpackSign_packComponents, Sign.ofBitVec_toBitVec]
  rw [if_neg (by decide), if_pos trivial, dif_neg hM]
  rfl

theorem pack_normal {sign : Sign} {m : ℕ} {e : ℤ} (hm : 0 < m) (h : Canonical m e) (he : e ≤ 971)
    (hfull : 2 ^ 52 ≤ m) : pack Format.binary64 (.finite sign m e hm) =
      packComponents Format.binary64 sign (BitVec.ofNat 11 (e + 1075).toNat) (BitVec.ofNat 52 m) := by
  have hbias : e + (Format.binary64.exponentBias : ℤ) + (52 : ℕ) = e + 1075 := by
    rw [add_assoc]
    rfl
  have hlow := h.low
  have hlog : m.log2 + 1 = Format.binary64.mantissaBits := by
    have hlower := (Nat.le_log2 hm.ne').mpr hfull
    have hupper := (Nat.log2_lt hm.ne').mpr h.lt
    change m.log2 + 1 = 53
    omega
  unfold UnpackedFloat.pack
  dsimp only
  rw [hbias, if_neg (by omega), if_pos hlog]

theorem pack_subnormal {sign : Sign} {m : ℕ} (hm : 0 < m) (hlt : m < 2 ^ 52) :
    pack Format.binary64 (.finite sign m (-1074) hm) =
      packComponents Format.binary64 sign 0#11 (BitVec.ofNat 52 m) := by
  have hbias : -1074 + (Format.binary64.exponentBias : ℤ) + (52 : ℕ) = 1 := by decide
  have hlog : ¬ m.log2 + 1 = Format.binary64.mantissaBits := by
    have hupper := (Nat.log2_lt hm.ne').mpr hlt
    change ¬ m.log2 + 1 = 53
    omega
  unfold UnpackedFloat.pack
  dsimp only
  rw [hbias, if_neg (by decide), if_neg hlog]

/-- A canonical number that is not too large is not changed when it is packed. -/
theorem unpack_pack_finite {sign : Sign} {m : ℕ} {e : ℤ} (hm : 0 < m) (h : Canonical m e)
    (he : e ≤ 971) :
    unpack Format.binary64 (pack Format.binary64 (.finite sign m e hm)) = .finite sign m e hm := by
  have hlow := h.low
  have hlt := h.lt
  by_cases hfull : 2 ^ 52 ≤ m
  · have hE : (BitVec.ofNat 11 (e + 1075).toNat).toNat = (e + 1075).toNat := by
      rw [BitVec.toNat_ofNat, Nat.mod_eq_of_lt (by omega)]
    have hzero : BitVec.ofNat 11 (e + 1075).toNat ≠ 0#11 := by
      intro heq
      have hnat := congrArg BitVec.toNat heq
      rw [hE] at hnat
      change (e + 1075).toNat = 0 at hnat
      omega
    have htop : BitVec.ofNat 11 (e + 1075).toNat ≠ -1#11 := by
      intro heq
      have hnat := congrArg BitVec.toNat heq
      rw [hE] at hnat
      change (e + 1075).toNat = 2047 at hnat
      omega
    obtain ⟨hm', hunpack⟩ := unpack_packComponents_normal sign (BitVec.ofNat 52 m) hzero htop
    rw [pack_normal hm h he hfull, hunpack]
    congr 1
    · rw [BitVec.toNat_ofNat]
      omega
    · rw [hE]
      omega
  · have hM : (BitVec.ofNat 52 m).toNat = m := by
      rw [BitVec.toNat_ofNat, Nat.mod_eq_of_lt (by omega)]
    have hne : BitVec.ofNat 52 m ≠ 0#52 := by
      intro heq
      have hnat := congrArg BitVec.toNat heq
      rw [hM] at hnat
      change m = 0 at hnat
      omega
    obtain rfl : e = -1074 := h.full.resolve_right hfull
    obtain ⟨hm', hunpack⟩ := unpack_packComponents_subnormal sign hne
    rw [pack_subnormal hm (Nat.lt_of_not_le hfull), hunpack]
    congr 1

theorem unpack_packedInfinity (sign : Sign) :
    unpack Format.binary64 (packedInfinity Format.binary64 sign) = .infinity sign := by
  cases sign <;> rfl

/-! ### Numbers that are near themselves -/

theorem value_finite_eq (sign : Sign) (m : ℕ) (e : ℤ) (hm : 0 < m) :
    value (.finite sign m e hm) = ((sign.apply m : ℤ) : ℚ) * 2 ^ e :=
  unit_mul_natCast sign m e

theorem abs_value_finite (sign : Sign) (m : ℕ) (e : ℤ) (hm : 0 < m) :
    |value (.finite sign m e hm)| = m * 2 ^ e := by
  rw [value, abs_unit_mul, abs_of_nonneg (by positivity)]

theorem near_self {u : UnpackedFloat} (hfinite : u.isFinite = true)
    (hcanonical : ∀ sign m e hm, u = .finite sign m e hm → Canonical m e) : Near (value u) u := by
  refine ⟨hfinite, hcanonical, ?_⟩
  cases u with
  | notANumber => cases hfinite
  | infinity sign => cases hfinite
  | zero sign => exact (near_zero sign).close
  | finite sign m e hm =>
    obtain ⟨-, hlow, hfull⟩ := hcanonical sign m e hm rfl
    refine ⟨sign.apply m, e, value_finite_eq sign m e hm, ?_, fun N hN hx => ?_⟩
    · rw [sub_self, abs_zero]
      exact zpow_pos e
    · rcases hfull with rfl | hfull
      · omega
      · rw [abs_value_finite] at hx
        have hcast : (2 : ℚ) ^ (52 : ℤ) ≤ m := by exact_mod_cast hfull
        have hpow : (2 : ℚ) ^ (52 + e) < 2 ^ N := by
          rw [zpow_add₀ two_ne_zero]
          exact (mul_le_mul_of_nonneg_right hcast (zpow_pos e).le).trans_lt hx
        have := (zpow_lt_zpow_iff_right₀ one_lt_two).mp hpow
        omega

theorem near_unpack {x : Float} (hx : x.isFinite = true) : Near (toRat x) x.toModel.unpack :=
  near_self hx fun _ _ _ _ h => (canonical_unpack h).1

/-- The greatest double. -/
def greatest : ℚ := (2 ^ 53 - 1) * 2 ^ (971 : ℤ)

theorem two_pow_1024 : (2 : ℚ) ^ (1024 : ℤ) = 2 ^ 53 * 2 ^ (971 : ℤ) := by
  have h := zpow_add₀ (two_ne_zero (α := ℚ)) 53 971
  exact h

theorem greatest_add : greatest + 2 ^ (971 : ℤ) = 2 ^ (1024 : ℤ) := by
  rw [greatest, two_pow_1024]
  ring

theorem greatest_lt : greatest < 2 ^ (1024 : ℤ) := by
  rw [← greatest_add]
  exact lt_add_of_pos_right _ (zpow_pos 971)

theorem abs_toRat_le (x : Float) : |toRat x| ≤ greatest := by
  have hpos := zpow_pos 971
  unfold toRat greatest
  cases h : x.toModel.unpack with
  | finite sign m e hm =>
    obtain ⟨⟨hlt, -, -⟩, he⟩ := canonical_unpack h
    rw [abs_value_finite]
    have hm' : (m : ℚ) ≤ 2 ^ 53 - 1 := by
      have : m + 1 ≤ 2 ^ 53 := hlt
      have hcast : (m : ℚ) + 1 ≤ 2 ^ 53 := by exact_mod_cast this
      linarith
    exact mul_le_mul hm' (zpow_le_zpow_right₀ one_le_two he) (zpow_pos e).le (by norm_num)
  | _ =>
    change |(0 : ℚ)| ≤ _
    rw [abs_zero]
    exact mul_nonneg (by norm_num) hpos.le

/-! ### Packing what was rounded -/

theorem Near.abs_value_lt {x : ℚ} {u : UnpackedFloat} (h : Near x u) (hx : |x| ≤ greatest) :
    |value u| < 2 ^ (1024 : ℤ) := by
  obtain ⟨q, T, -, hclose, hplace⟩ := h.close
  have hT : T ≤ 971 := hplace 1024 (by omega) (hx.trans_lt greatest_lt)
  have hunit : (2 : ℚ) ^ T ≤ 2 ^ (971 : ℤ) := zpow_le_zpow_right₀ one_le_two hT
  calc |value u| = |(value u - x) + x| := by rw [sub_add_cancel]
    _ ≤ |value u - x| + |x| := abs_add_le _ _
    _ < 2 ^ (971 : ℤ) + greatest := add_lt_add_of_lt_of_le (hclose.trans_le hunit) hx
    _ = 2 ^ (1024 : ℤ) := by rw [add_comm, greatest_add]

theorem Near.unpack_pack {x : ℚ} {u : UnpackedFloat} (h : Near x u)
    (hu : |value u| < 2 ^ (1024 : ℤ)) : (Float.Model.pack u).unpack = u := by
  change unpack Format.binary64 (pack Format.binary64 u) = u
  cases u with
  | notANumber => cases h.isFinite
  | infinity sign => cases h.isFinite
  | zero sign => cases sign <;> rfl
  | finite sign m e hm =>
    have hcanonical := h.canonical sign m e hm rfl
    refine unpack_pack_finite hm hcanonical ?_
    by_contra he
    have hfull : 2 ^ 52 ≤ m := hcanonical.full.resolve_left (by omega)
    have hcast : (2 : ℚ) ^ (52 : ℤ) ≤ m := by exact_mod_cast hfull
    have hpow : (2 : ℚ) ^ (972 : ℤ) ≤ 2 ^ e := zpow_le_zpow_right₀ one_le_two (by omega)
    have hlow : (2 : ℚ) ^ (52 : ℤ) * 2 ^ (972 : ℤ) ≤ m * 2 ^ e :=
      mul_le_mul hcast hpow (zpow_pos _).le (Nat.cast_nonneg m)
    rw [← zpow_add₀ two_ne_zero] at hlow
    rw [abs_value_finite] at hu
    exact absurd (hlow.trans_lt hu) (lt_irrefl _)

/-- What was rounded is either kept when it is packed or too large. -/
theorem Near.unpack_pack_cases {x : ℚ} {u : UnpackedFloat} (h : Near x u) :
    (Float.Model.pack u).unpack = u ∨ ∃ sign, (Float.Model.pack u).unpack = .infinity sign := by
  change unpack Format.binary64 (pack Format.binary64 u) = u ∨ ∃ sign,
    unpack Format.binary64 (pack Format.binary64 u) = _
  cases u with
  | notANumber => cases h.isFinite
  | infinity sign => cases h.isFinite
  | zero sign => exact .inl (by cases sign <;> rfl)
  | finite sign m e hm =>
    by_cases he : e ≤ 971
    · exact .inl (unpack_pack_finite hm (h.canonical sign m e hm rfl) he)
    · have hbias : e + (Format.binary64.exponentBias : ℤ) + (52 : ℕ) = e + 1075 := by
        rw [add_assoc]
        rfl
      refine .inr ⟨sign, ?_⟩
      unfold UnpackedFloat.pack
      dsimp only
      rw [hbias, if_pos (by omega)]
      exact unpack_packedInfinity sign

end FeedMerge.Double
