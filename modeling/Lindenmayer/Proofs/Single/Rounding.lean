import Lindenmayer.Proofs.Single.Value

/-!
# Exact results, rounded once

A number is rounded in binary by cutting its mantissa at the last place and keeping two bits of what
stood behind: the first digit, and whether any later one is set. `Represents` is what the three say
about the number; cutting off one digit more keeps the account (`Represents.shiftRightOne`), and it
is enough to find the nearest integer (`Represents.roundedMantissa`). A carry into a twenty-fifth
digit is taken in by the next place (`shiftToTargetExponent_carry`).

Put together, rounding a mantissa with an account of what stands behind it gives the canonical form
of `nearest` (`standsFor_roundWithAccuracy`), as does rounding a mantissa with any exponent
(`standsFor_round`), and packing that gives a single (`StandsFor.isRounded_pack`). `IsRounded` is
what is known of the result of an operation: the nearest number, or an infinity if that is beyond
the largest single. Results in the grid are exact (`IsRounded.of_grid`), and results up to the
middle between the largest single and the power of two behind it are finite (`IsRounded.of_abs_lt`).
-/

set_option autoImplicit false

namespace Lindenmayer.Single

open Float.Model (Format UnpackedFloat totalExponent)
open Float.Model.UnpackedFloat

/-! ### Mantissas with the digits behind them -/

/-- What a mantissa with a round bit and a sticky bit says about the number it was cut from. -/
def Represents : ExtendedMantissa → ℚ → Prop
  | ⟨mantissa, false, false⟩, number => number = mantissa
  | ⟨mantissa, false, true⟩, number => mantissa < number ∧ number < mantissa + 1 / 2
  | ⟨mantissa, true, false⟩, number => number = mantissa + 1 / 2
  | ⟨mantissa, true, true⟩, number => mantissa + 1 / 2 < number ∧ number < mantissa + 1

theorem represents_exact (mantissa : Nat) :
    Represents (.ofMantissaAndAccuracy mantissa .exact) mantissa := rfl

/-- The mantissa is the whole part of the number. -/
theorem Represents.floor_eq {extended : ExtendedMantissa} {number : ℚ}
    (h : Represents extended number) : ⌊number⌋ = extended.mantissa := by
  obtain ⟨mantissa, roundBit, stickyBit⟩ := extended
  rw [Int.floor_eq_iff, Int.cast_natCast]
  cases roundBit <;> cases stickyBit <;> simp only [Represents] at h <;> constructor <;> linarith

/-- The two bits are enough to round to the nearest integer. -/
theorem Represents.roundedMantissa {extended : ExtendedMantissa} {number : ℚ}
    (h : Represents extended number) : (extended.roundedMantissa : ℤ) = nearestInt number := by
  have hfloor := h.floor_eq
  obtain ⟨mantissa, roundBit, stickyBit⟩ := extended
  rw [nearestInt, hfloor, Int.cast_natCast]
  cases roundBit <;> cases stickyBit <;> simp only [Represents] at h
  · rw [if_pos (by linarith)]
    rfl
  · rw [if_pos (by linarith)]
    rfl
  · rw [if_neg (by linarith), if_neg (by linarith)]
    rfl
  · rw [if_neg (by linarith), if_pos (by linarith)]
    rfl

/-- Moving the point by one digit keeps the account. -/
theorem Represents.shiftRightOne {extended : ExtendedMantissa} {number : ℚ}
    (h : Represents extended number) : Represents extended.shiftRightOne (number / 2) := by
  obtain ⟨mantissa, roundBit, stickyBit⟩ := extended
  have hhalf : (mantissa : ℚ) = 2 * (mantissa / 2 : ℕ) + (mantissa % 2 : ℕ) := by
    exact_mod_cast (Nat.div_add_mod mantissa 2).symm
  rw [ExtendedMantissa.shiftRightOne]
  rcases Nat.mod_two_eq_zero_or_one mantissa with hparity | hparity
  · have hbit : (mantissa % 2 != 0) = false := by rw [hparity]; rfl
    rw [hparity, Nat.cast_zero] at hhalf
    cases roundBit <;> cases stickyBit <;> simp only [hbit, Bool.or_true, Bool.or_false] <;>
      simp only [Represents] at h ⊢ <;> first | linarith | constructor <;> linarith
  · have hbit : (mantissa % 2 != 0) = true := by rw [hparity]; rfl
    rw [hparity, Nat.cast_one] at hhalf
    cases roundBit <;> cases stickyBit <;> simp only [hbit, Bool.or_true, Bool.or_false] <;>
      simp only [Represents] at h ⊢ <;> first | linarith | constructor <;> linarith

theorem Represents.shiftRight {extended : ExtendedMantissa} {number : ℚ}
    (h : Represents extended number) (digits : Nat) :
    Represents (extended >>> digits) (number / 2 ^ digits) := by
  change Represents (digits.repeat ExtendedMantissa.shiftRightOne extended) _
  induction digits with
  | zero =>
    rw [pow_zero, div_one]
    exact h
  | succ digits ih =>
    rw [pow_succ, ← div_div]
    exact ih.shiftRightOne

/-! ### Rounding -/

theorem targetExponent_binary32 (digits : ℤ) :
    Format.binary32.targetExponent digits = max (digits - 24) (-149) := rfl

/-- The digits of a number are counted from its whole part in any place. -/
theorem log_eq {mantissa : Nat} (hpos : 0 < mantissa) {exponent : ℤ} {number : ℚ}
    (hnumber : 0 < number) (hfloor : ⌊number / 2 ^ exponent⌋ = mantissa) :
    Int.log 2 number = mantissa.log2 + exponent := by
  have hunit : (0 : ℚ) < 2 ^ exponent := zpow_pos two_pos _
  obtain ⟨hlow, hhigh⟩ := Int.floor_eq_iff.mp hfloor
  rw [Int.cast_natCast] at hlow hhigh
  apply le_antisymm
  · rw [← Int.lt_add_one_iff, ← Int.lt_zpow_iff_log_lt one_lt_two hnumber, Nat.cast_two,
      add_right_comm, zpow_add₀ two_ne_zero, ← div_lt_iff₀ hunit]
    refine hhigh.trans_le ?_
    exact_mod_cast Nat.succ_le_of_lt Nat.lt_log2_self
  · rw [← Int.zpow_le_iff_le_log one_lt_two hnumber, Nat.cast_two, zpow_add₀ two_ne_zero,
      ← le_div_iff₀ hunit]
    refine le_trans ?_ hlow
    exact_mod_cast Nat.log2_self_le hpos.ne'

theorem floor_magnitude (mantissa : Nat) (exponent : ℤ) :
    ⌊(mantissa : ℚ) * 2 ^ exponent / 2 ^ exponent⌋ = mantissa := by
  rw [mul_div_cancel_right₀ _ (zpow_ne_zero _ two_ne_zero), Int.floor_natCast]

/-- The place to which a mantissa is cut is the last place of the number it was cut from. -/
theorem targetExponent_eq {mantissa : Nat} (hpos : 0 < mantissa) {exponent : ℤ} {number : ℚ}
    (hnumber : 0 < number) (hfloor : ⌊number / 2 ^ exponent⌋ = mantissa) :
    Format.binary32.targetExponent (totalExponent mantissa exponent) = lastPlace number := by
  rw [lastPlace, abs_of_pos hnumber, log_eq hpos hnumber hfloor, targetExponent_binary32,
    totalExponent]
  omega

/-- A number without a whole part in a place that is not behind its last one is cut to the smallest
place, which is its last. -/
theorem targetExponent_zero {exponent : ℤ} {number : ℚ} (hnumber : 0 < number)
    (hle : exponent ≤ lastPlace number) (hfloor : ⌊number / 2 ^ exponent⌋ = 0) :
    Format.binary32.targetExponent (totalExponent 0 exponent) = lastPlace number := by
  have hlt : number < 2 ^ exponent := by
    rw [Int.floor_eq_zero_iff, Set.mem_Ico, div_lt_one (zpow_pos two_pos _)] at hfloor
    exact hfloor.2
  have hlog : Int.log 2 number < exponent :=
    (Int.lt_zpow_iff_log_lt one_lt_two hnumber).mp (mod_cast hlt)
  rw [lastPlace, abs_of_pos hnumber] at hle ⊢
  rw [targetExponent_binary32, totalExponent, Nat.log2_zero]
  omega

/-- Cutting a number to its last place leaves the multiple of the place, with an account of the
digits behind it. -/
theorem shiftToTargetExponent_spec {mantissa : Nat} {exponent : ℤ} {accuracy : Accuracy}
    {number : ℚ} (hnumber : 0 < number) (hle : exponent ≤ lastPlace number)
    (h : Represents (.ofMantissaAndAccuracy mantissa accuracy) (number / 2 ^ exponent)) :
    ∃ extended, Represents extended (number / 2 ^ lastPlace number) ∧
      shiftToTargetExponent Format.binary32 mantissa exponent accuracy =
        (extended, lastPlace number) := by
  have hfloor : ⌊number / 2 ^ exponent⌋ = mantissa :=
    h.floor_eq.trans (by cases accuracy with
      | exact => rfl
      | inexact side => cases side <;> rfl)
  have htarget : Format.binary32.targetExponent (totalExponent mantissa exponent) =
      lastPlace number := by
    rcases mantissa.eq_zero_or_pos with rfl | hpos
    · exact targetExponent_zero hnumber hle hfloor
    · exact targetExponent_eq hpos hnumber hfloor
  have hdigits : exponent + (lastPlace number - exponent).toNat = lastPlace number := by omega
  rw [shiftToTargetExponent, htarget]
  refine ⟨_, ?_, Prod.ext rfl hdigits⟩
  have hquotient : number / 2 ^ lastPlace number =
      number / 2 ^ exponent / 2 ^ (lastPlace number - exponent).toNat := by
    conv_lhs => rw [← hdigits, zpow_add₀ two_ne_zero, zpow_natCast, ← div_div]
  rw [hquotient]
  exact h.shiftRight _

/-- Mantissas of at most twenty-four digits are cut no further. -/
theorem shiftToTargetExponent_of_lt {mantissa : Nat} (hlt : mantissa < 2 ^ 24) {exponent : ℤ}
    (hexponent : -149 ≤ exponent) :
    shiftToTargetExponent Format.binary32 mantissa exponent .exact =
      (.ofMantissaAndAccuracy mantissa .exact, exponent) := by
  have hlog : mantissa.log2 < 24 := by
    rcases eq_or_ne mantissa 0 with rfl | hne
    · decide
    · exact (Nat.log2_lt hne).mpr hlt
  have htarget : (Format.binary32.targetExponent (totalExponent mantissa exponent) -
      exponent).toNat = 0 := by
    rw [targetExponent_binary32, totalExponent]
    omega
  rw [shiftToTargetExponent, shiftToExponent, htarget]
  exact Prod.ext rfl (add_zero exponent)

/-- A carry out of the mantissa is taken in by the next place. -/
theorem shiftToTargetExponent_carry {exponent : ℤ} (hexponent : -149 ≤ exponent) :
    shiftToTargetExponent Format.binary32 (2 ^ 24) exponent .exact =
      (.ofMantissaAndAccuracy (2 ^ 23) .exact, exponent + 1) := by
  have htarget : (Format.binary32.targetExponent (totalExponent (2 ^ 24) exponent) -
      exponent).toNat = 1 := by
    rw [targetExponent_binary32, totalExponent, Nat.log2_two_pow]
    omega
  rw [shiftToTargetExponent, shiftToExponent, htarget]
  rfl

/-- A finite number in canonical form and what it stands for. -/
structure StandsFor (unpacked : UnpackedFloat) (number : ℚ) : Prop where
  canonical : Canonical unpacked
  isFinite : unpacked.isFinite = true
  value_eq : exactValue unpacked = number

/-- Rounding a positive number gives the nearest multiple of its last place. -/
theorem standsFor_roundWithAccuracy_positive {mantissa : Nat} {exponent : ℤ} {accuracy : Accuracy}
    {number : ℚ} (hnumber : 0 < number) (hle : exponent ≤ lastPlace number)
    (h : Represents (.ofMantissaAndAccuracy mantissa accuracy) (number / 2 ^ exponent)) :
    StandsFor (roundWithAccuracy Format.binary32 .positive mantissa exponent accuracy)
      (nearest number) := by
  obtain ⟨extended, hrepresents, hshift⟩ := shiftToTargetExponent_spec hnumber hle h
  have hrounded := hrepresents.roundedMantissa
  have hnearest : nearest number = extended.roundedMantissa * 2 ^ lastPlace number := by
    rw [nearest, ← hrounded, Int.cast_natCast]
  have hplace := le_lastPlace number
  have hhigh : extended.roundedMantissa ≤ 2 ^ 24 := by
    have hle := (le_abs_self _).trans (abs_nearestInt_le number)
    rw [← hrounded] at hle
    exact_mod_cast hle
  have hlow : 2 ^ 23 ≤ extended.roundedMantissa ∨ lastPlace number = -149 := by
    rcases hplace.eq_or_lt with heq | hlt
    · exact .inr heq.symm
    · have hle := le_nearestInt hnumber hlt
      rw [← hrounded] at hle
      exact .inl (mod_cast hle)
  rw [roundWithAccuracy, hshift]
  dsimp only
  generalize extended.roundedMantissa = rounded at *
  rcases hhigh.lt_or_eq with hlt | rfl
  · rw [shiftToTargetExponent_of_lt hlt hplace]
    change StandsFor (if h : rounded = 0 then .zero .positive
      else .finite .positive rounded (lastPlace number) (Nat.pos_of_ne_zero h)) _
    split
    · exact ⟨trivial, rfl, by rw [hnearest, ‹rounded = 0›, Nat.cast_zero, zero_mul]; rfl⟩
    · exact ⟨⟨hlt, hplace, hlow⟩, rfl, by rw [hnearest, exactValue_positive]⟩
  · rw [shiftToTargetExponent_carry hplace]
    change StandsFor (.finite .positive (2 ^ 23) (lastPlace number + 1) (by norm_num)) _
    refine ⟨⟨by norm_num, by omega, .inl le_rfl⟩, rfl, ?_⟩
    rw [hnearest, exactValue_positive, zpow_add_one₀ two_ne_zero]
    push_cast
    ring

/-- A finite number is a zero or has a mantissa. -/
theorem StandsFor.zero_or_finite {unpacked : UnpackedFloat} {number : ℚ}
    (h : StandsFor unpacked number) :
    (∃ sign, unpacked = .zero sign ∧ number = 0) ∨
      ∃ sign mantissa exponent hpos, unpacked = .finite sign mantissa exponent hpos ∧
        number = exactValue (.finite sign mantissa exponent hpos) := by
  obtain ⟨-, hfinite, rfl⟩ := h
  cases unpacked with
  | zero sign => exact .inl ⟨sign, rfl, rfl⟩
  | finite sign mantissa exponent hpos => exact .inr ⟨sign, mantissa, exponent, hpos, rfl, rfl⟩
  | infinity sign => cases hfinite
  | notANumber => cases hfinite

theorem StandsFor.neg {unpacked : UnpackedFloat} {number : ℚ} (h : StandsFor unpacked number) :
    StandsFor unpacked.neg (-number) := by
  obtain ⟨hcanonical, hfinite, rfl⟩ := h
  refine ⟨?_, ?_, exactValue_neg unpacked⟩
  · cases unpacked <;> exact hcanonical
  · cases unpacked <;> exact hfinite

/-- The sign takes no part in rounding. -/
theorem roundWithAccuracy_negative (mantissa : Nat) (exponent : ℤ) (accuracy : Accuracy) :
    roundWithAccuracy Format.binary32 .negative mantissa exponent accuracy =
      (roundWithAccuracy Format.binary32 .positive mantissa exponent accuracy).neg := by
  rw [roundWithAccuracy, roundWithAccuracy]
  dsimp only
  split <;> rfl

theorem apply_eq (sign : Sign) (mantissa : ℤ) :
    (sign.apply mantissa : ℚ) = sign.apply 1 * mantissa := by
  cases sign <;> simp [Sign.apply]

/-- Rounding a number with a sign. -/
theorem standsFor_roundWithAccuracy (sign : Sign) {mantissa : Nat} {exponent : ℤ}
    {accuracy : Accuracy} {number : ℚ} (hnumber : 0 < number) (hle : exponent ≤ lastPlace number)
    (h : Represents (.ofMantissaAndAccuracy mantissa accuracy) (number / 2 ^ exponent)) :
    StandsFor (roundWithAccuracy Format.binary32 sign mantissa exponent accuracy)
      (nearest (sign.apply 1 * number)) := by
  have hpositive := standsFor_roundWithAccuracy_positive hnumber hle h
  cases sign with
  | positive => simpa [Sign.apply] using hpositive
  | negative =>
    rw [roundWithAccuracy_negative, Sign.apply, Int.cast_neg, Int.cast_one, neg_one_mul,
      nearest_neg]
    exact hpositive.neg

/-- Rounding a number with any exponent. One that is larger than the last place is lowered to it
first. -/
theorem standsFor_round (sign : Sign) {mantissa : Nat} (hpos : 0 < mantissa) (exponent : ℤ) :
    StandsFor (UnpackedFloat.round Format.binary32 sign mantissa exponent)
      (nearest (sign.apply mantissa * 2 ^ exponent)) := by
  have hmagnitude : (0 : ℚ) < mantissa * 2 ^ exponent := by positivity
  set place := lastPlace (mantissa * 2 ^ exponent) with hplace
  obtain ⟨digits, hdigits⟩ : ∃ digits : Nat, digits = (exponent - place).toNat := ⟨_, rfl⟩
  have hquotient : (mantissa : ℚ) * 2 ^ exponent / 2 ^ (exponent - digits) =
      (mantissa <<< digits : ℕ) := by
    rw [Nat.shiftLeft_eq, zpow_sub₀ two_ne_zero, zpow_natCast]
    push_cast
    field_simp
  have hround : UnpackedFloat.round Format.binary32 sign mantissa exponent =
      roundWithAccuracy Format.binary32 sign (mantissa <<< digits) (exponent - digits) .exact := by
    rw [UnpackedFloat.round, targetExponent_eq hpos hmagnitude (floor_magnitude mantissa exponent),
      decreaseExponent, ← hplace, ← hdigits]
  rw [hround, apply_eq, Int.cast_natCast, mul_assoc]
  refine standsFor_roundWithAccuracy sign hmagnitude (by omega) ?_
  rw [hquotient]
  exact represents_exact _

/-- Rounding a signed integer mantissa with any exponent. -/
theorem standsFor_normalize (mantissa exponent : ℤ) (zeroSign : Sign) :
    StandsFor (normalize Format.binary32 mantissa exponent zeroSign)
      (nearest (mantissa * 2 ^ exponent)) := by
  rw [UnpackedFloat.normalize]
  rcases lt_trichotomy mantissa 0 with hneg | rfl | hpos
  · have hpos : 0 < (-mantissa).toNat := by omega
    have hmagnitude : ((-mantissa).toNat : ℤ) = -mantissa := by omega
    have hround := standsFor_round .negative hpos exponent
    rw [Sign.apply, hmagnitude, neg_neg] at hround
    rw [compare_lt_iff_lt.mpr hneg]
    exact hround
  · rw [compare_eq_iff_eq.mpr rfl, Int.cast_zero, zero_mul, nearest_zero]
    exact ⟨trivial, rfl, rfl⟩
  · have hpos' : 0 < mantissa.toNat := by omega
    have hmagnitude : (mantissa.toNat : ℤ) = mantissa := by omega
    have hround := standsFor_round .positive hpos' exponent
    rw [Sign.apply, hmagnitude] at hround
    rw [compare_gt_iff_gt.mpr hpos]
    exact hround

/-! ### Results -/

/-- A single that is an exact result, rounded once: the nearest number of twenty-four digits, or an
infinity if that is beyond the largest single. -/
def IsRounded (result : Float32) (exact : ℚ) : Prop :=
  if |nearest exact| ≤ largest then result.isFinite = true ∧ value result = nearest exact
  else parts result = .infinity (if exact < 0 then .negative else .positive)

/-- A rounded number becomes a single by packing. -/
theorem StandsFor.isRounded_pack {unpacked : UnpackedFloat} {exact : ℚ}
    (h : StandsFor unpacked (nearest exact)) : IsRounded (.ofModel (.pack unpacked)) exact := by
  obtain ⟨hcanonical, hfinite, hvalue⟩ := h
  by_cases hfits : Fits unpacked
  · rw [IsRounded, if_pos (hvalue ▸ (fits_iff hcanonical).mp hfits), isFinite_eq, value,
      parts_ofModel_pack hcanonical hfits]
    exact ⟨hfinite, hvalue⟩
  · rw [IsRounded, if_neg (hvalue ▸ (fits_iff hcanonical).not.mp hfits)]
    cases unpacked with
    | finite sign mantissa exponent hpos =>
      rw [parts_ofModel_pack_finite_of_lt hpos (not_le.mp hfits)]
      cases sign with
      | positive =>
        have hpositive := exactValue_pos exponent hpos
        rw [hvalue] at hpositive
        rw [if_neg fun hlt ↦ (nearest_nonpos hlt.le).not_gt hpositive]
      | negative =>
        have hnegative := exactValue_lt_zero exponent hpos
        rw [hvalue] at hnegative
        rw [if_pos (lt_of_not_ge fun hle ↦ (nearest_nonneg hle).not_gt hnegative)]
    | _ => exact absurd trivial hfits

theorem isRounded_ofDyadic (sign : Sign) (mantissa : Nat) (exponent : ℤ) :
    IsRounded (ofDyadic sign mantissa exponent) (sign.apply mantissa * 2 ^ exponent) := by
  rw [ofDyadic]
  refine StandsFor.isRounded_pack ?_
  split_ifs with hzero
  · subst hzero
    refine ⟨trivial, rfl, ?_⟩
    cases sign <;> simp [exactValue, Sign.apply]
  · exact standsFor_round sign (Nat.pos_of_ne_zero hzero) exponent

/-- A rounded result that is finite is the nearest number. -/
theorem IsRounded.value_eq {result : Float32} {exact : ℚ} (h : IsRounded result exact)
    (hfinite : result.isFinite = true) : value result = nearest exact := by
  rw [IsRounded] at h
  split_ifs at h
  · exact h.2
  all_goals
    rw [isFinite_eq, h] at hfinite
    cases hfinite

/-- A result that needs no rounding. -/
theorem IsRounded.of_grid {result : Float32} {exact : ℚ} (h : IsRounded result exact)
    (hgrid : Grid exact) (hle : |exact| ≤ largest) :
    result.isFinite = true ∧ value result = exact := by
  rwa [IsRounded, nearest_of_grid hgrid, if_pos hle] at h

/-- A result that is nearer to the largest single than to what would be the next one is rounded to a
single. -/
theorem abs_nearest_le_largest {number : ℚ} (h : |number| < (2 ^ 25 - 1) * 2 ^ 103) :
    |nearest number| ≤ largest := by
  by_contra hbeyond
  rw [not_le] at hbeyond
  have hne : number ≠ 0 := by
    rintro rfl
    rw [nearest_zero, abs_zero] at hbeyond
    exact absurd hbeyond (by norm_num [largest])
  have hlarge : (2 ^ 24 : ℚ) * 2 ^ (104 : ℤ) ≤ |nearest number| := by
    have hpower : (2 : ℚ) ^ ((104 : ℤ) + 23) ≤ |nearest number| :=
      le_trans (by norm_num [largest]) hbeyond.le
    obtain ⟨multiple, hmultiple⟩ := (grid_nearest number).exists_multiple hpower
    have hunit : (0 : ℚ) < 2 ^ (104 : ℤ) := zpow_pos two_pos _
    rw [hmultiple, abs_mul, abs_of_pos hunit] at hbeyond ⊢
    rw [largest] at hbeyond
    have hlt : ((2 ^ 24 - 1 : ℤ) : ℚ) < (|multiple| : ℤ) := by
      push_cast
      exact lt_of_mul_lt_mul_right (mod_cast hbeyond) hunit.le
    exact mul_le_mul_of_nonneg_right (mod_cast Int.le_of_sub_one_lt (mod_cast hlt)) hunit.le
  have herror : |nearest number - number| ≤ 2 ^ (104 : ℤ) / 2 := by
    refine (abs_nearest_sub_le number).trans (div_le_div_of_nonneg_right ?_ zero_le_two)
    refine zpow_le_zpow_right₀ one_le_two (lastPlace_le hne (by norm_num) (h.trans (by norm_num)))
  have htriangle := abs_sub_abs_le_abs_sub (nearest number) number
  norm_num at hlarge herror h
  linarith

theorem IsRounded.of_abs_lt {result : Float32} {exact : ℚ} (h : IsRounded result exact)
    (hlt : |exact| < (2 ^ 25 - 1) * 2 ^ 103) :
    result.isFinite = true ∧ value result = nearest exact := by
  rwa [IsRounded, if_pos (abs_nearest_le_largest hlt)] at h

end Lindenmayer.Single
