import Lindenmayer.Proofs.Single.Order
import Lindenmayer.Proofs.Single.Product

/-!
# Square roots of singles

The root of a single is rarely a rational number, so there is no exact value to be rounded. But no
more of it is needed than which numbers it lies between. The whole part of a root and the two bits
behind it are also those of some rational number between any two bounds of the root
(`represents_sqrt`), so that the rounded root is that number, rounded (`isRounded_sqrt`).

A vector is divided by its length through the reciprocal of a root. That is finite and positive for
every finite positive number, however large or small (`reciprocal_sqrt_pos`), and for nothing else
(`of_reciprocal_sqrt_pos`).
-/

set_option autoImplicit false

namespace Lindenmayer.Single

open Float.Model (Format UnpackedFloat totalExponent)
open Float.Model.UnpackedFloat

/-! ### The digits of a root -/

/-- Two intervals that reach into each other have a number in common. -/
theorem exists_common {first last low high : ℚ} (hinterval : first < last) (hbounds : low ≤ high)
    (hfirst : first < high) (hlast : low < last) :
    ∃ number, first < number ∧ number < last ∧ low ≤ number ∧ number ≤ high := by
  rcases lt_or_ge first low with hlt | hle
  · exact ⟨low, hlt, hlast, le_rfl, hbounds⟩
  · obtain ⟨number, hnumber, hnumber'⟩ := exists_between (lt_min hinterval hfirst)
    obtain ⟨hlt, hhigh⟩ := lt_min_iff.mp hnumber'
    exact ⟨number, hnumber, hlt, hle.trans hnumber.le, hhigh.le⟩

/-- How the whole part of a root relates to the root. -/
def rootAccuracy (radicand : Nat) : Accuracy :=
  let rest := radicand - radicand.sqrt * radicand.sqrt
  if rest = 0 then .exact else .inexact (if rest ≤ radicand.sqrt then .lt else .gt)

/-- The whole part of a root and the two bits behind it are those of a number between any bounds of
the root, which are told from the number by the squares. -/
theorem represents_sqrt (radicand : Nat) {low high : ℚ} (hlow_nonneg : 0 ≤ low)
    (hhigh_nonneg : 0 ≤ high) (hlow : low ^ 2 ≤ radicand) (hhigh : radicand ≤ high ^ 2) :
    ∃ number, low ≤ number ∧ number ≤ high ∧
      Represents (.ofMantissaAndAccuracy radicand.sqrt (rootAccuracy radicand)) number := by
  have hroot := radicand.sqrt_le
  have hnext := Nat.lt_succ_sqrt radicand
  rw [rootAccuracy]
  generalize radicand.sqrt = root at *
  obtain ⟨rest, rfl⟩ := Nat.exists_eq_add_of_le hroot
  have hbounds : low ≤ high :=
    (pow_le_pow_iff_left₀ hlow_nonneg hhigh_nonneg two_ne_zero).mp (hlow.trans hhigh)
  have hnonneg : (0 : ℚ) ≤ root := root.cast_nonneg
  have below_high {number : ℚ} (hnumber : number ^ 2 < (root * root + rest : ℕ)) :
      number < high := lt_of_pow_lt_pow_left₀ 2 hhigh_nonneg (hnumber.trans_le hhigh)
  have low_below {number : ℚ} (hpos : 0 ≤ number)
      (hnumber : (root * root + rest : ℕ) < number ^ 2) : low < number :=
    lt_of_pow_lt_pow_left₀ 2 hpos (hlow.trans_lt hnumber)
  simp only [Nat.add_sub_cancel_left]
  split_ifs with hzero hhalf
  · subst hzero
    have hsquare : ((root * root + 0 : ℕ) : ℚ) = (root : ℚ) ^ 2 := by push_cast; ring
    rw [hsquare] at hlow hhigh
    exact ⟨root, (pow_le_pow_iff_left₀ hlow_nonneg hnonneg two_ne_zero).mp hlow,
      (pow_le_pow_iff_left₀ hnonneg hhigh_nonneg two_ne_zero).mp hhigh, rfl⟩
  · have hrest : (0 : ℚ) < rest := mod_cast Nat.pos_of_ne_zero hzero
    have hrest_le : (rest : ℚ) ≤ root := mod_cast hhalf
    obtain ⟨number, hfirst, hlast, hlow', hhigh'⟩ := exists_common
      (show (root : ℚ) < root + 1 / 2 by linarith) hbounds
      (below_high (by push_cast; linarith [sq (root : ℚ)]))
      (low_below (by linarith) (by push_cast; ring_nf; linarith))
    exact ⟨number, hlow', hhigh', hfirst, hlast⟩
  · have hrest : (root : ℚ) + 1 ≤ rest := mod_cast Nat.lt_of_not_le hhalf
    have hnext' : ((root * root + rest : ℕ) : ℚ) < (root + 1) ^ 2 := by
      rw [sq]
      exact_mod_cast hnext
    obtain ⟨number, hfirst, hlast, hlow', hhigh'⟩ := exists_common
      (show (root : ℚ) + 1 / 2 < root + 1 by linarith) hbounds
      (below_high (by push_cast; ring_nf; linarith)) (low_below (by linarith) hnext')
    exact ⟨number, hlow', hhigh', hfirst, hlast⟩

/-! ### Roots of singles -/

/-- Half of the digits of a number before the point are enough for a lower bound of its root. -/
theorem sq_zpow_le {mantissa : Nat} (hpos : 0 < mantissa) (exponent : ℤ) :
    ((2 : ℚ) ^ ((totalExponent mantissa exponent + 1) / 2 - 1)) ^ 2 ≤ mantissa * 2 ^ exponent := by
  have hdigits : ((2 ^ mantissa.log2 : ℕ) : ℚ) ≤ mantissa := mod_cast Nat.log2_self_le hpos.ne'
  rw [← zpow_natCast, ← zpow_mul]
  calc (2 : ℚ) ^ (((totalExponent mantissa exponent + 1) / 2 - 1) * (2 : ℕ))
      ≤ 2 ^ (mantissa.log2 + exponent) := by
        refine zpow_le_zpow_right₀ one_le_two ?_
        rw [totalExponent]
        omega
    _ = (2 ^ mantissa.log2 : ℕ) * 2 ^ exponent := by
        rw [zpow_add₀ two_ne_zero, zpow_natCast, Nat.cast_pow, Nat.cast_two]
    _ ≤ mantissa * 2 ^ exponent := mul_le_mul_of_nonneg_right hdigits (zpow_pos two_pos _).le

/-- The place to which a root is worked out is not behind its last place. -/
theorem le_lastPlace_of_root {mantissa : Nat} {exponent place : ℤ} {root : ℚ}
    (hplace : place ≤ Format.binary32.targetExponent ((totalExponent mantissa exponent + 1) / 2))
    (hroot : (2 : ℚ) ^ ((totalExponent mantissa exponent + 1) / 2 - 1) ≤ root) :
    place ≤ lastPlace root := by
  have hpos : 0 < root := (zpow_pos two_pos _).trans_le hroot
  rw [← Nat.cast_two, Int.zpow_le_iff_le_log one_lt_two hpos] at hroot
  rw [targetExponent_binary32] at hplace
  rw [lastPlace, abs_of_pos hpos]
  omega

/-- In units of the square of a place up to half of its exponent a number is a natural one. -/
theorem magnitude_eq_mul_sq (mantissa : Nat) {exponent place : ℤ} (h : place ≤ exponent / 2) :
    (mantissa : ℚ) * 2 ^ exponent =
      (mantissa <<< (exponent - 2 * place).toNat : ℕ) * (2 ^ place) ^ 2 := by
  have hexponent : exponent = (exponent - 2 * place).toNat + place * (2 : ℕ) := by omega
  conv_lhs => rw [hexponent, zpow_add₀ two_ne_zero, zpow_natCast, zpow_mul, zpow_natCast]
  rw [Nat.shiftLeft_eq]
  push_cast
  exact (mul_assoc _ _ _).symm

/-- The square root of a canonical number. -/
theorem standsFor_sqrt {mantissa : Nat} {exponent : ℤ} (hpos : 0 < mantissa) {low high : ℚ}
    (hlow_nonneg : 0 ≤ low) (hhigh_nonneg : 0 ≤ high) (hlow : low ^ 2 ≤ mantissa * 2 ^ exponent)
    (hhigh : mantissa * 2 ^ exponent ≤ high ^ 2) :
    ∃ root, low ≤ root ∧ root ≤ high ∧
      StandsFor (UnpackedFloat.sqrt Format.binary32 (.finite .positive mantissa exponent hpos))
        (nearest root) := by
  set place := min (exponent / 2)
    (Format.binary32.targetExponent ((totalExponent mantissa exponent + 1) / 2))
  set digits : ℚ := 2 ^ ((totalExponent mantissa exponent + 1) / 2 - 1)
  have hdigits : 0 < digits := zpow_pos two_pos _
  have hunit : (0 : ℚ) < 2 ^ place := zpow_pos two_pos _
  have hlow' : max low digits ^ 2 ≤ mantissa * 2 ^ exponent := by
    rcases max_choice low digits with heq | heq
    · rwa [heq]
    · rw [heq]
      exact sq_zpow_le hpos exponent
  rw [magnitude_eq_mul_sq mantissa (min_le_left _ _ : place ≤ exponent / 2)] at hlow' hhigh
  generalize hradicand : mantissa <<< (exponent - 2 * place).toNat = radicand at hlow' hhigh
  obtain ⟨number, hnumber, hnumber', hrepresents⟩ := represents_sqrt radicand
    (div_nonneg (le_max_of_le_left hlow_nonneg) hunit.le) (div_nonneg hhigh_nonneg hunit.le)
    (by rwa [div_pow, div_le_iff₀ (by positivity)]) (by rwa [div_pow, le_div_iff₀ (by positivity)])
  rw [div_le_iff₀ hunit, max_le_iff] at hnumber
  rw [le_div_iff₀ hunit] at hnumber'
  refine ⟨number * 2 ^ place, hnumber.1, hnumber', ?_⟩
  have hsqrt : UnpackedFloat.sqrt Format.binary32 (.finite .positive mantissa exponent hpos) =
      roundWithAccuracy Format.binary32 .positive radicand.sqrt place (rootAccuracy radicand) := by
    rw [← hradicand]
    rfl
  rw [hsqrt]
  refine standsFor_roundWithAccuracy_positive (hdigits.trans_le hnumber.2)
    (le_lastPlace_of_root (min_le_right _ _) hnumber.2) ?_
  rwa [mul_div_cancel_right₀ _ hunit.ne']

/-- The root of a positive single is a number between any bounds of the root, rounded. -/
theorem isRounded_sqrt {number : Float32} (hpos : 0 < value number) {low high : ℚ}
    (hlow_nonneg : 0 ≤ low) (hhigh_nonneg : 0 ≤ high) (hlow : low ^ 2 ≤ value number)
    (hhigh : value number ≤ high ^ 2) :
    ∃ root, low ≤ root ∧ root ≤ high ∧ IsRounded number.sqrt root := by
  obtain ⟨sign, mantissa, exponent, hmantissa, hparts, -, -, hvalue⟩ :=
    exists_parts_eq_finite hpos.ne'
  obtain rfl : sign = .positive := by
    cases sign with
    | positive => rfl
    | negative =>
      rw [value, hparts] at hpos
      exact absurd hpos (exactValue_lt_zero exponent hmantissa).not_gt
  rw [apply_positive, Int.cast_natCast] at hvalue
  rw [hvalue] at hlow hhigh
  obtain ⟨root, hroot, hroot', hstands⟩ :=
    standsFor_sqrt hmantissa hlow_nonneg hhigh_nonneg hlow hhigh
  rw [← hparts] at hstands
  exact ⟨root, hroot, hroot', hstands.isRounded_pack⟩

/-! ### Reciprocals of roots -/

theorem parts_reciprocal (number : Float32) : parts (1 / number) =
    parts (.ofModel (.pack (UnpackedFloat.div Format.binary32
      (.finite .positive (2 ^ 23) (-23) (by decide)) (parts number)))) := rfl

theorem parts_sqrt (number : Float32) : parts number.sqrt =
    parts (.ofModel (.pack (UnpackedFloat.sqrt Format.binary32 (parts number)))) := rfl

/-- The roots whose reciprocal is finite and positive are those of finite positive numbers. -/
theorem of_reciprocal_sqrt_pos {number : Float32} (hfinite : (1 / number.sqrt).isFinite = true)
    (hpos : 0 < 1 / number.sqrt) : number.isFinite = true ∧ 0 < value number := by
  obtain ⟨-, -, hpos⟩ := lt_iff_level.mp hpos
  rw [isFinite_eq, parts_reciprocal, parts_sqrt] at hfinite
  rw [level, level, parts_reciprocal, parts_sqrt] at hpos
  rw [isFinite_eq, value]
  have hnone : (parts (.ofModel (.pack (UnpackedFloat.div Format.binary32
      (.finite .positive (2 ^ 23) (-23) (by decide))
        (parts (.ofModel (.pack .notANumber))))))).isFinite = false := by
    rw [parts_pack_notANumber]
    rfl
  cases hnumber : parts number with
  | notANumber =>
    rw [hnumber] at hfinite
    exact absurd hfinite (Bool.eq_false_iff.mp hnone)
  | infinity sign =>
    rw [hnumber] at hfinite hpos
    cases sign with
    | positive => exact absurd hpos (by decide)
    | negative => exact absurd hfinite (Bool.eq_false_iff.mp hnone)
  | zero sign =>
    rw [hnumber] at hfinite
    cases sign with
    | positive => cases hfinite
    | negative => cases hfinite
  | finite sign mantissa exponent hmantissa =>
    rw [hnumber] at hfinite
    cases sign with
    | positive => exact ⟨rfl, exactValue_pos exponent hmantissa⟩
    | negative => exact absurd hfinite (Bool.eq_false_iff.mp hnone)

/-- The root of a finite positive number is finite and positive, and so is its reciprocal: halving
the exponent takes it well inside the range of the singles. -/
theorem reciprocal_sqrt_pos {number : Float32} (hpos : 0 < value number) :
    (1 / number.sqrt).isFinite = true ∧ 0 < value (1 / number.sqrt) := by
  have hsmall : (2 ^ (-75 : ℤ)) ^ 2 ≤ value number := le_trans (by norm_num) (zpow_le_value hpos)
  have hlarge : value number ≤ (2 ^ (64 : ℤ)) ^ 2 :=
    (le_abs_self _).trans ((abs_value_le number).trans (by norm_num [largest]))
  obtain ⟨root, hlow, hhigh, hround⟩ := isRounded_sqrt hpos (zpow_pos two_pos _).le
    (zpow_pos two_pos _).le hsmall hlarge
  obtain ⟨hfinite, hlow, hhigh⟩ := hround.of_between_grid (grid_zpow (by norm_num))
    (grid_zpow (by norm_num)) (by norm_num [largest]) (by norm_num [largest]) hlow hhigh
  have hroot : 0 < value number.sqrt := (zpow_pos two_pos _).trans_le hlow
  have hreciprocal := isRounded_div isFinite_one hfinite hroot.ne'
  rw [value_one] at hreciprocal
  obtain ⟨hfinite', hlow', -⟩ := hreciprocal.of_between_grid
    (grid_zpow (show -149 ≤ (-64 : ℤ) by norm_num)) (grid_zpow (show -149 ≤ (75 : ℤ) by norm_num))
    (by norm_num [largest]) (by norm_num [largest])
    (le_trans (by norm_num) (one_div_le_one_div_of_le hroot hhigh))
    ((one_div_le_one_div_of_le (zpow_pos two_pos _) hlow).trans (by norm_num))
  exact ⟨hfinite', (zpow_pos two_pos _).trans_le hlow'⟩

end Lindenmayer.Single
