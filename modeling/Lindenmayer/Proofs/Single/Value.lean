import Lindenmayer.Single.Rounding
import Lindenmayer.Proofs.Single.Nearest
import Mathlib

/-!
# The values of single-precision numbers

The parts of a single are in `Canonical` form: at most twenty-four digits, all of them in the
mantissa unless the last one stands in the smallest place. Every canonical number that is not beyond
the largest single is the parts of one (`parts_ofModel_pack`), and no other is (`canonical_parts`);
beyond the largest single there are infinities (`parts_ofModel_pack_finite_of_lt`).

`value` is the rational number that a finite single stands for. Finite singles are compared by their
values (`lt_iff`, `le_iff`, `beq_iff`), because of two canonical numbers the one with the larger
exponent is the larger one (`magnitude_lt_of_exponent_lt`); and apart from the two zeros a single is
known by its value (`eq_of_value_eq`).
-/

set_option autoImplicit false

namespace Lindenmayer.Single

open Float.Model (Format UnpackedFloat)
open Float.Model.UnpackedFloat

/-! ### Parts -/

/-- Every single has its own parts. -/
theorem parts_inj {first second : Float32} : parts first = parts second ↔ first = second := by
  rw [parts, parts, Float32.Model.unpack, Float32.Model.unpack,
    unpack_inj_of_valid first.toModel.valid second.toModel.valid, UInt32.toBitVec_inj]
  exact Float32.toBits_inj

/-- A number of at most twenty-four digits, with all of them in its mantissa unless the last one
stands in the smallest place. -/
def Canonical : UnpackedFloat → Prop
  | .finite _ mantissa exponent _ =>
    mantissa < 2 ^ 24 ∧ -149 ≤ exponent ∧ (2 ^ 23 ≤ mantissa ∨ exponent = -149)
  | _ => True

/-- A canonical number that is not beyond the largest single. -/
def Fits : UnpackedFloat → Prop
  | .finite _ _ exponent _ => exponent ≤ 104
  | _ => True

theorem exponentBias_binary32 : Format.binary32.exponentBias = 127 := rfl

/-- The leading one of a mantissa, which is not stored. -/
theorem toNat_one_append (mantissa : BitVec 23) :
    (1#1 ++ mantissa).toNat = 2 ^ 23 + mantissa.toNat := by
  rw [BitVec.toNat_append, ← Nat.shiftLeft_add_eq_or_of_lt mantissa.isLt]
  rfl

/-- The exponents that are stored for numbers with a leading one. -/
theorem toNat_stored {stored : BitVec 8} (hne : stored ≠ 0#8) (hlast : stored ≠ -1#8) :
    0 < stored.toNat ∧ stored.toNat < 255 := by
  constructor <;> bv_omega

theorem canonical_parts (number : Float32) : Canonical (parts number) ∧ Fits (parts number) := by
  rw [parts, Float32.Model.unpack]
  fun_cases UnpackedFloat.unpack with
  | case1 => exact ⟨trivial, trivial⟩
  | case2 => exact ⟨trivial, trivial⟩
  | case3 => exact ⟨trivial, trivial⟩
  | case4 mantissa stored exponent _ _ _ hzero hne =>
    have hexponent : exponent = stored.toNat - 150 := rfl
    have hstored : stored.toNat = 0 := by rw [hzero]; rfl
    have hlt : mantissa.toNat < 2 ^ 23 := mantissa.isLt
    simp only [Canonical, Fits]
    omega
  | case5 mantissa stored exponent _ _ hlast hne =>
    have hexponent : exponent = stored.toNat - 150 := rfl
    have hstored : 0 < stored.toNat ∧ stored.toNat < 255 := toNat_stored hne hlast
    have hlt : mantissa.toNat < 2 ^ 23 := mantissa.isLt
    have happend : (1#1 ++ mantissa).toNat = 2 ^ 23 + mantissa.toNat := toNat_one_append mantissa
    simp only [Canonical, Fits, happend]
    omega

theorem unpack_packComponents_of_ne (sign : Sign) {stored : BitVec 8} (hne : stored ≠ 0#8)
    (hlast : stored ≠ -1#8) (mantissa : BitVec 23) :
    unpack Format.binary32 (packComponents Format.binary32 sign stored mantissa) =
      .finite sign (2 ^ 23 + mantissa.toNat) (stored.toNat - 150) (by positivity) := by
  simp only [unpack, unpackExponent_packComponents, unpackMantissa_packComponents,
    unpackSign_packComponents, Sign.ofBitVec_toBitVec, if_neg hlast, if_neg hne]
  congr 1
  exact toNat_one_append mantissa

theorem unpack_packComponents_zero (sign : Sign) {mantissa : BitVec 23} (hne : mantissa ≠ 0#23) :
    unpack Format.binary32 (packComponents Format.binary32 sign 0#8 mantissa) =
      .finite sign mantissa.toNat (-149) (by bv_omega) := by
  simp only [unpack, unpackExponent_packComponents, unpackMantissa_packComponents,
    unpackSign_packComponents, Sign.ofBitVec_toBitVec]
  rw [if_neg (by decide), if_pos trivial, dif_neg hne]
  rfl

/-- What is packed is read back, if it is a single. -/
theorem parts_ofModel_pack {unpacked : UnpackedFloat} (hcanonical : Canonical unpacked)
    (hfits : Fits unpacked) : parts (.ofModel (.pack unpacked)) = unpacked := by
  change unpack Format.binary32 (pack Format.binary32 unpacked) = unpacked
  cases unpacked with
  | infinity sign => cases sign <;> rfl
  | notANumber => rfl
  | zero sign => cases sign <;> rfl
  | finite sign mantissa exponent hpos =>
    obtain ⟨hlt, hsmallest, hdigits⟩ := hcanonical
    simp only [Fits] at hfits
    obtain ⟨stored, rfl⟩ : ∃ stored : Nat, exponent = stored - 150 :=
      ⟨(exponent + 150).toNat, by omega⟩
    have hbiased :
        ((stored - 150 : ℤ) + Format.binary32.exponentBias + (23 : Nat)).toNat = stored := by
      rw [exponentBias_binary32]
      omega
    have hfits : ¬ 2 ^ 8 ≤ stored + 1 := by omega
    have hbits : Format.binary32.mantissaBits = 24 := rfl
    by_cases hleading : 2 ^ 23 ≤ mantissa
    · have hlog : mantissa.log2 = 23 := (Nat.log2_eq_iff hpos.ne').mpr ⟨hleading, hlt⟩
      have hstoredNat : (BitVec.ofNat 8 stored).toNat = stored := by
        rw [BitVec.toNat_ofNat, Nat.mod_eq_of_lt (by omega)]
      simp only [pack, hbiased, if_neg hfits, hlog, hbits, if_pos]
      rw [unpack_packComponents_of_ne sign (by bv_omega) (by bv_omega)]
      simp only [hstoredNat, BitVec.toNat_ofNat]
      congr 1
      omega
    · have hlog : mantissa.log2 < 23 := (Nat.log2_lt hpos.ne').mpr (not_le.mp hleading)
      have hne : mantissa.log2 + 1 ≠ 24 := by omega
      simp only [pack, hbiased, if_neg hfits, hbits, if_neg hne]
      rw [unpack_packComponents_zero sign (by bv_omega)]
      simp only [BitVec.toNat_ofNat]
      congr 1
      all_goals omega

/-- A canonical number that is not a single is packed as an infinity. -/
theorem parts_ofModel_pack_finite_of_lt {sign : Sign} {mantissa : Nat} {exponent : ℤ}
    (hpos : 0 < mantissa) (h : 104 < exponent) :
    parts (.ofModel (.pack (.finite sign mantissa exponent hpos))) = .infinity sign := by
  change unpack Format.binary32 (pack Format.binary32 _) = _
  have hbeyond : 2 ^ 8 ≤ (exponent + Format.binary32.exponentBias + (23 : Nat)).toNat + 1 := by
    rw [exponentBias_binary32]
    omega
  simp only [pack, if_pos hbeyond]
  cases sign <;> rfl

/-! ### Values -/

/-- The number that finite parts stand for, and zero for everything else. -/
def exactValue : UnpackedFloat → ℚ
  | .finite sign mantissa exponent _ => sign.apply mantissa * 2 ^ exponent
  | _ => 0

theorem apply_positive (mantissa : ℤ) : Sign.positive.apply mantissa = mantissa := rfl

theorem apply_negative (mantissa : ℤ) : Sign.negative.apply mantissa = -mantissa := rfl

theorem abs_apply (sign : Sign) (mantissa : Nat) : |sign.apply mantissa| = mantissa := by
  cases sign with
  | positive => rw [apply_positive, Nat.abs_cast]
  | negative => rw [apply_negative, abs_neg, Nat.abs_cast]

/-- The value of a finite number. -/
def value (number : Float32) : ℚ := exactValue (parts number)

theorem value_zero : value 0 = 0 := rfl

theorem isFinite_eq (number : Float32) : number.isFinite = (parts number).isFinite := rfl

theorem isFinite_zero : (0 : Float32).isFinite = true := rfl

theorem isFinite_one : (1 : Float32).isFinite = true := rfl

/-- The largest single. -/
def largest : ℚ := (2 ^ 24 - 1) * 2 ^ 104

theorem exactValue_positive {mantissa : Nat} {exponent : ℤ} (hpos : 0 < mantissa) :
    exactValue (.finite .positive mantissa exponent hpos) = mantissa * 2 ^ exponent := by
  rw [exactValue, apply_positive, Int.cast_natCast]

theorem exactValue_negative {mantissa : Nat} {exponent : ℤ} (hpos : 0 < mantissa) :
    exactValue (.finite .negative mantissa exponent hpos) = -(mantissa * 2 ^ exponent) := by
  rw [exactValue, apply_negative, Int.cast_neg, Int.cast_natCast, neg_mul]

theorem exactValue_pos {mantissa : Nat} (exponent : ℤ) (hpos : 0 < mantissa) :
    0 < exactValue (.finite .positive mantissa exponent hpos) := by
  rw [exactValue_positive]
  positivity

theorem exactValue_lt_zero {mantissa : Nat} (exponent : ℤ) (hpos : 0 < mantissa) :
    exactValue (.finite .negative mantissa exponent hpos) < 0 := by
  rw [exactValue_negative, neg_lt_zero]
  positivity

theorem exactValue_neg (unpacked : UnpackedFloat) :
    exactValue unpacked.neg = -exactValue unpacked := by
  cases unpacked with
  | finite sign mantissa exponent hpos =>
    have hnegative : -Sign.negative = .positive := rfl
    have hpositive : -Sign.positive = .negative := rfl
    cases sign <;> simp [UnpackedFloat.neg, exactValue, Sign.apply, hnegative, hpositive]
  | _ => simp [UnpackedFloat.neg, exactValue]

theorem value_one : value 1 = 1 := by
  have hparts : parts 1 = .finite .positive (2 ^ 23) (-23) (by decide) := rfl
  rw [value, hparts, exactValue_positive]
  norm_num

/-- The finite numbers of value zero are the two zeros. -/
theorem exists_parts_eq_zero {number : Float32} (hfinite : number.isFinite = true)
    (hzero : value number = 0) : ∃ sign, parts number = .zero sign := by
  rw [isFinite_eq] at hfinite
  rw [value] at hzero
  cases hparts : parts number with
  | zero sign => exact ⟨sign, rfl⟩
  | finite sign mantissa exponent hpos =>
    rw [hparts] at hzero
    cases sign with
    | positive => exact absurd hzero (exactValue_pos exponent hpos).ne'
    | negative => exact absurd hzero (exactValue_lt_zero exponent hpos).ne
  | infinity sign => rw [hparts] at hfinite; cases hfinite
  | notANumber => rw [hparts] at hfinite; cases hfinite

/-- Every other number with a value has a mantissa of at most twenty-four digits. -/
theorem exists_parts_eq_finite {number : Float32} (hne : value number ≠ 0) :
    ∃ sign mantissa exponent hpos, parts number = .finite sign mantissa exponent hpos ∧
      mantissa < 2 ^ 24 ∧ -149 ≤ exponent ∧ value number = sign.apply mantissa * 2 ^ exponent := by
  have hcanonical := (canonical_parts number).1
  rw [value] at hne
  cases hparts : parts number with
  | finite sign mantissa exponent hpos =>
    rw [hparts] at hcanonical
    exact ⟨sign, mantissa, exponent, hpos, rfl, hcanonical.1, hcanonical.2.1, by
      rw [value, hparts, exactValue]⟩
  | _ =>
    rw [hparts] at hne
    exact absurd rfl hne

theorem grid_apply (sign : Sign) {mantissa : Nat} (hlt : mantissa < 2 ^ 24) {exponent : ℤ}
    (hexponent : -149 ≤ exponent) : Grid (sign.apply mantissa * 2 ^ exponent) := by
  refine ⟨sign.apply mantissa, exponent, ?_, hexponent, rfl⟩
  rw [abs_apply]
  exact_mod_cast hlt

/-- Canonical numbers stand for numbers of the grid. -/
theorem grid_exactValue {unpacked : UnpackedFloat} (hcanonical : Canonical unpacked) :
    Grid (exactValue unpacked) := by
  cases unpacked with
  | finite sign mantissa exponent hpos => exact grid_apply sign hcanonical.1 hcanonical.2.1
  | _ => exact grid_zero

theorem grid_value (number : Float32) : Grid (value number) :=
  grid_exactValue (canonical_parts number).1

/-- A positive single is at least the smallest one. -/
theorem zpow_le_value {number : Float32} (hpos : 0 < value number) :
    (2 : ℚ) ^ (-149 : ℤ) ≤ value number := by
  obtain ⟨multiple, hmultiple⟩ := (grid_value number).exists_smallest
  have hunit : (0 : ℚ) < 2 ^ (-149 : ℤ) := zpow_pos two_pos _
  rw [hmultiple] at hpos ⊢
  have hone : (1 : ℚ) ≤ multiple := mod_cast pos_of_mul_pos_left hpos hunit.le
  exact le_mul_of_one_le_left hunit.le hone

theorem abs_exactValue_finite (sign : Sign) {mantissa : Nat} (exponent : ℤ) (hpos : 0 < mantissa) :
    |exactValue (.finite sign mantissa exponent hpos)| = mantissa * 2 ^ exponent := by
  have hunit : (0 : ℚ) < 2 ^ exponent := zpow_pos two_pos _
  rw [exactValue, abs_mul, abs_of_pos hunit, ← Int.cast_abs, abs_apply, Int.cast_natCast]

/-- A canonical number is a single if it is no larger than the largest one. -/
theorem fits_iff {unpacked : UnpackedFloat} (h : Canonical unpacked) :
    Fits unpacked ↔ |exactValue unpacked| ≤ largest := by
  cases unpacked with
  | finite sign mantissa exponent hpos =>
    obtain ⟨hlt, -, hdigits⟩ := h
    rw [abs_exactValue_finite, largest, Fits]
    constructor
    · intro hfits
      have hmantissa : (mantissa : ℚ) ≤ 2 ^ 24 - 1 := by
        rw [le_sub_iff_add_le]
        exact_mod_cast hlt
      exact mul_le_mul hmantissa (mod_cast zpow_le_zpow_right₀ one_le_two hfits)
        (zpow_pos two_pos _).le (by norm_num)
    · intro hle
      by_contra hlarge
      have hmantissa : (2 ^ 23 : ℚ) ≤ mantissa := mod_cast hdigits.resolve_right (by omega)
      have hpower : (2 : ℚ) ^ (105 : ℤ) ≤ 2 ^ exponent := zpow_le_zpow_right₀ one_le_two (by omega)
      have hbeyond : (2 ^ 23 : ℚ) * 2 ^ (105 : ℤ) ≤ mantissa * 2 ^ exponent :=
        mul_le_mul hmantissa hpower (zpow_pos two_pos _).le (by positivity)
      have hgap : ((2 ^ 24 - 1) * 2 ^ 104 : ℚ) < 2 ^ 23 * 2 ^ (105 : ℤ) := by norm_num
      linarith
  | _ => norm_num [Fits, exactValue, largest]

theorem abs_value_le (number : Float32) : |value number| ≤ largest := by
  obtain ⟨hcanonical, hfits⟩ := canonical_parts number
  exact (fits_iff hcanonical).mp hfits

/-! ### Comparisons -/

/-- Of two canonical numbers the one with the larger exponent has the larger magnitude. -/
theorem magnitude_lt_of_exponent_lt {first second : Nat} {exponent exponent' : ℤ}
    (hfirst : first < 2 ^ 24) (hexponent : -149 ≤ exponent)
    (hsecond : 2 ^ 23 ≤ second ∨ exponent' = -149) (h : exponent < exponent') :
    (first : ℚ) * 2 ^ exponent < second * 2 ^ exponent' := by
  have hsecond : 2 ^ 23 ≤ second := hsecond.resolve_right (by omega)
  calc (first : ℚ) * 2 ^ exponent < 2 ^ 24 * 2 ^ exponent :=
        mul_lt_mul_of_pos_right (mod_cast hfirst) (zpow_pos two_pos _)
    _ = 2 ^ 23 * 2 ^ (exponent + 1) := by rw [zpow_add_one₀ two_ne_zero]; ring
    _ ≤ 2 ^ 23 * 2 ^ exponent' :=
        mul_le_mul_of_nonneg_left (zpow_le_zpow_right₀ one_le_two h) (by norm_num)
    _ ≤ second * 2 ^ exponent' :=
        mul_le_mul_of_nonneg_right (mod_cast hsecond) (zpow_pos two_pos _).le

/-- Canonical magnitudes are compared by their exponents first. -/
theorem compare_magnitude {first second : Nat} {exponent exponent' : ℤ}
    (hcanonical : first < 2 ^ 24 ∧ -149 ≤ exponent ∧ (2 ^ 23 ≤ first ∨ exponent = -149))
    (hcanonical' : second < 2 ^ 24 ∧ -149 ≤ exponent' ∧ (2 ^ 23 ≤ second ∨ exponent' = -149)) :
    (compare exponent exponent').then (compare first second) =
      compare ((first : ℚ) * 2 ^ exponent) (second * 2 ^ exponent') := by
  rcases lt_trichotomy exponent exponent' with hlt | rfl | hgt
  · rw [compare_lt_iff_lt.mpr hlt, Ordering.lt_then, eq_comm, compare_lt_iff_lt]
    exact magnitude_lt_of_exponent_lt hcanonical.1 hcanonical.2.1 hcanonical'.2.2 hlt
  · have hunit : (0 : ℚ) < 2 ^ exponent := zpow_pos two_pos _
    rw [compare_eq_iff_eq.mpr rfl, Ordering.eq_then]
    rcases lt_trichotomy first second with hlt | rfl | hgt
    · rw [compare_lt_iff_lt.mpr hlt, eq_comm, compare_lt_iff_lt]
      exact mul_lt_mul_of_pos_right (mod_cast hlt) hunit
    · rw [compare_eq_iff_eq.mpr rfl, compare_eq_iff_eq.mpr rfl]
    · rw [compare_gt_iff_gt.mpr hgt, eq_comm, compare_gt_iff_gt]
      exact mul_lt_mul_of_pos_right (mod_cast hgt) hunit
  · rw [compare_gt_iff_gt.mpr hgt, Ordering.gt_then, eq_comm, compare_gt_iff_gt]
    exact magnitude_lt_of_exponent_lt hcanonical'.1 hcanonical'.2.1 hcanonical.2.2 hgt

theorem compare_neg_neg (first second : ℚ) :
    compare (-first) (-second) = (compare first second).swap := by
  rcases lt_trichotomy first second with hlt | rfl | hgt
  · rw [compare_lt_iff_lt.mpr hlt, compare_gt_iff_gt.mpr (neg_lt_neg hlt), Ordering.swap_lt]
  · rw [compare_eq_iff_eq.mpr rfl, compare_eq_iff_eq.mpr rfl, Ordering.swap_eq]
  · rw [compare_gt_iff_gt.mpr hgt, compare_lt_iff_lt.mpr (neg_lt_neg hgt), Ordering.swap_gt]

/-- Finite canonical numbers are compared by their values. -/
theorem compare_eq {first second : UnpackedFloat} (hfirst : first.isFinite = true)
    (hsecond : second.isFinite = true) (hcanonical : Canonical first)
    (hcanonical' : Canonical second) :
    first.compare second = some (compare (exactValue first) (exactValue second)) := by
  cases first with
  | notANumber => cases hfirst
  | infinity sign => cases hfirst
  | zero sign =>
    cases second with
    | notANumber => cases hsecond
    | infinity sign => cases hsecond
    | zero sign => exact congrArg some (compare_eq_iff_eq.mpr rfl).symm
    | finite sign mantissa exponent hpos =>
      cases sign with
      | positive =>
        have hlt := exactValue_pos exponent hpos
        exact congrArg some (compare_lt_iff_lt.mpr hlt).symm
      | negative =>
        have hgt := exactValue_lt_zero exponent hpos
        exact congrArg some (compare_gt_iff_gt.mpr hgt).symm
  | finite sign mantissa exponent hpos =>
    cases second with
    | notANumber => cases hsecond
    | infinity sign => cases hsecond
    | zero sign' =>
      cases sign with
      | positive =>
        have hgt := exactValue_pos exponent hpos
        exact congrArg some (compare_gt_iff_gt.mpr hgt).symm
      | negative =>
        have hlt := exactValue_lt_zero exponent hpos
        exact congrArg some (compare_lt_iff_lt.mpr hlt).symm
    | finite sign' mantissa' exponent' hpos' =>
      have hmagnitude := compare_magnitude hcanonical hcanonical'
      cases sign with
      | positive =>
        cases sign' with
        | positive => rw [exactValue_positive, exactValue_positive, ← hmagnitude]; rfl
        | negative =>
          have hgt := (exactValue_lt_zero exponent' hpos').trans (exactValue_pos exponent hpos)
          exact congrArg some (compare_gt_iff_gt.mpr hgt).symm
      | negative =>
        cases sign' with
        | positive =>
          have hlt := (exactValue_lt_zero exponent hpos).trans (exactValue_pos exponent' hpos')
          exact congrArg some (compare_lt_iff_lt.mpr hlt).symm
        | negative =>
          rw [exactValue_negative, exactValue_negative, compare_neg_neg, ← hmagnitude]
          rfl

/-- Two finite singles are compared by their values. -/
theorem compare_parts {first second : Float32} (hfirst : first.isFinite = true)
    (hsecond : second.isFinite = true) :
    (parts first).compare (parts second) = some (compare (value first) (value second)) :=
  compare_eq hfirst hsecond (canonical_parts first).1 (canonical_parts second).1

theorem lt_iff {first second : Float32} (hfirst : first.isFinite = true)
    (hsecond : second.isFinite = true) : first < second ↔ value first < value second := by
  have hcompare : first < second ↔ ((parts first).compare (parts second) == some .lt) = true :=
    decide_eq_true_iff
  rw [hcompare, compare_parts hfirst hsecond, beq_iff_eq, Option.some_inj, compare_lt_iff_lt]

theorem le_iff {first second : Float32} (hfirst : first.isFinite = true)
    (hsecond : second.isFinite = true) : first ≤ second ↔ value first ≤ value second := by
  have hcompare : first ≤ second ↔ ((parts first).compare (parts second)).any (·.isLE) = true :=
    decide_eq_true_iff
  rw [hcompare, compare_parts hfirst hsecond, Option.any_some, ← Ordering.ne_gt_iff_isLE]
  exact compare_le_iff_le

theorem beq_iff {first second : Float32} (hfirst : first.isFinite = true)
    (hsecond : second.isFinite = true) : (first == second) = true ↔ value first = value second := by
  change ((parts first).compare (parts second) == some .eq) = true ↔ _
  rw [compare_parts hfirst hsecond, beq_iff_eq, Option.some_inj, compare_eq_iff_eq]

/-- A finite number other than zero is known by its value. -/
theorem eq_of_value_eq {first second : Float32} (hfirst : first.isFinite = true)
    (hsecond : second.isFinite = true) (h : value first = value second) (hne : value first ≠ 0) :
    first = second := by
  rw [← parts_inj]
  have hbeq := (beq_iff hfirst hsecond).mpr h
  change (parts first).beq (parts second) = true at hbeq
  obtain ⟨-, -, heq | ⟨hzero, -⟩ | ⟨hzero, -⟩⟩ := (beq_iff_ne_notANumber_and_eq _ _).mp hbeq
  · exact heq
  all_goals
    rw [value, hzero] at hne
    exact absurd rfl hne

end Lindenmayer.Single
