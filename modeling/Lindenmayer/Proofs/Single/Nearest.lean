import Mathlib.Data.Int.Log
import Mathlib.Data.Rat.Floor
import Mathlib.Tactic.Linarith
import Mathlib.Tactic.Positivity
import Mathlib.Tactic.Ring

/-!
# Rounding to twenty-four binary digits

Singles are rational numbers of at most twenty-four binary digits, none of which stands below
`2 ^ (-149)`. How small the last of the twenty-four digits is depends on the size of the number:
`lastPlace` is the exponent of its place. `nearest` rounds to a multiple of that place, a tie going
to the even multiple; it does not stop at the largest single.

The numbers that need no rounding form the `Grid`. Rounding leaves them alone (`nearest_of_grid`),
leads into the grid (`grid_nearest`), moves a number by no more than half of its last place
(`abs_nearest_sub_le`), keeps the order (`nearest_mono`) and is the same on both sides of zero
(`nearest_neg`). The numbers that are rounded to zero are those up to half of the smallest place
(`nearest_eq_zero_iff`).
-/

set_option autoImplicit false

namespace Lindenmayer.Single

/-! ### Integers -/

/-- The integer nearest to a number; in the middle between two, the even one. -/
def nearestInt (number : ℚ) : ℤ :=
  if number - ⌊number⌋ < 1 / 2 then ⌊number⌋
  else if 1 / 2 < number - ⌊number⌋ then ⌊number⌋ + 1
  else ⌊number⌋ + ⌊number⌋ % 2

theorem abs_nearestInt_sub_le (number : ℚ) : |(nearestInt number : ℚ) - number| ≤ 1 / 2 := by
  have hlow := Int.floor_le number
  have hhigh := Int.lt_floor_add_one number
  have heven : (0 : ℚ) ≤ (⌊number⌋ % 2 : ℤ) ∧ ((⌊number⌋ % 2 : ℤ) : ℚ) ≤ 1 := by
    constructor <;> norm_cast <;> omega
  rw [nearestInt, abs_le]
  split_ifs <;> push_cast at heven ⊢ <;> constructor <;> linarith

@[simp] theorem nearestInt_intCast (number : ℤ) : nearestInt (number : ℚ) = number := by
  rw [nearestInt, Int.floor_intCast, sub_self, if_pos (by norm_num)]

/-- Rounding keeps the order, since the middle between two integers would else separate the numbers
the other way round. -/
theorem nearestInt_mono {first second : ℚ} (h : first ≤ second) :
    nearestInt first ≤ nearestInt second := by
  rcases h.eq_or_lt with rfl | hlt
  · exact le_rfl
  · by_contra hcross
    have hgap : (nearestInt second : ℚ) + 1 ≤ nearestInt first := by
      exact_mod_cast Int.lt_iff_add_one_le.mp (not_le.mp hcross)
    have hfirst := abs_le.mp (abs_nearestInt_sub_le first)
    have hsecond := abs_le.mp (abs_nearestInt_sub_le second)
    linarith

theorem nearestInt_neg (number : ℚ) : nearestInt (-number) = -nearestInt number := by
  have hlow := Int.floor_le number
  have hhigh := Int.lt_floor_add_one number
  rcases hlow.eq_or_lt with hint | hlt
  · rw [← hint, ← Int.cast_neg, nearestInt_intCast, nearestInt_intCast]
  · have hfloor : ⌊-number⌋ = -⌊number⌋ - 1 := by
      rw [Int.floor_eq_iff]
      push_cast
      constructor <;> linarith
    rw [nearestInt, nearestInt, hfloor]
    push_cast
    split_ifs <;> first | linarith | omega

/-! ### The last place -/

/-- The exponent of the place of the last digit of a number that is rounded to a single. -/
def lastPlace (number : ℚ) : ℤ := max (Int.log 2 |number| - 23) (-149)

theorem le_lastPlace (number : ℚ) : -149 ≤ lastPlace number := le_max_right _ _

@[simp] theorem lastPlace_neg (number : ℚ) : lastPlace (-number) = lastPlace number := by
  rw [lastPlace, lastPlace, abs_neg]

/-- There are at most twenty-four digits down to the last place. -/
theorem abs_lt_of_lastPlace (number : ℚ) : |number| < 2 ^ (lastPlace number + 24) := by
  have hlog : |number| < 2 ^ (Int.log 2 |number| + 1) :=
    mod_cast Int.lt_zpow_succ_log_self (R := ℚ) one_lt_two |number|
  refine hlog.trans_le (zpow_le_zpow_right₀ one_le_two ?_)
  have := le_max_left (Int.log 2 |number| - 23) (-149)
  rw [lastPlace]
  omega

/-- There are twenty-four digits, unless the last place is the smallest one. -/
theorem le_abs_of_lastPlace {number : ℚ} (hne : number ≠ 0) (h : -149 < lastPlace number) :
    2 ^ (lastPlace number + 23) ≤ |number| := by
  have hplace : lastPlace number + 23 = Int.log 2 |number| := by
    rw [lastPlace] at h ⊢
    omega
  rw [hplace]
  exact_mod_cast Int.zpow_log_le_self (R := ℚ) one_lt_two (abs_pos.mpr hne)

theorem lastPlace_le {number : ℚ} {place : ℤ} (hne : number ≠ 0) (hplace : -149 ≤ place)
    (h : |number| < 2 ^ (place + 24)) : lastPlace number ≤ place := by
  have hlog : Int.log 2 |number| < place + 24 :=
    (Int.lt_zpow_iff_log_lt one_lt_two (abs_pos.mpr hne)).mp (mod_cast h)
  rw [lastPlace]
  omega

theorem lastPlace_mono {first second : ℚ} (hne : first ≠ 0) (h : |first| ≤ |second|) :
    lastPlace first ≤ lastPlace second :=
  lastPlace_le hne (le_lastPlace second) (h.trans_lt (abs_lt_of_lastPlace second))

/-! ### Rounding -/

/-- The multiple of the last place that is nearest to a number. -/
def nearest (number : ℚ) : ℚ := nearestInt (number / 2 ^ lastPlace number) * 2 ^ lastPlace number

@[simp] theorem nearest_zero : nearest 0 = 0 := by
  rw [nearest, zero_div, ← Int.cast_zero, nearestInt_intCast, Int.cast_zero, zero_mul]

theorem nearest_neg (number : ℚ) : nearest (-number) = -nearest number := by
  rw [nearest, nearest, lastPlace_neg, neg_div, nearestInt_neg, Int.cast_neg, neg_mul]

/-- Rounding moves a number by no more than half of its last place. -/
theorem abs_nearest_sub_le (number : ℚ) :
    |nearest number - number| ≤ 2 ^ lastPlace number / 2 := by
  have hpos : (0 : ℚ) < 2 ^ lastPlace number := zpow_pos two_pos _
  have hsplit : nearest number - number =
      (nearestInt (number / 2 ^ lastPlace number) - number / 2 ^ lastPlace number) *
        2 ^ lastPlace number := by
    rw [sub_mul, div_mul_cancel₀ _ hpos.ne', nearest]
  rw [hsplit, abs_mul, abs_of_pos hpos, div_eq_inv_mul (2 ^ lastPlace number), ← one_div]
  exact mul_le_mul_of_nonneg_right (abs_nearestInt_sub_le _) hpos.le

/-- A multiple of a place is one of every smaller place. -/
theorem mul_zpow_eq {multiple place smaller : ℤ} (h : smaller ≤ place) :
    (multiple : ℚ) * 2 ^ place = (multiple * 2 ^ (place - smaller).toNat : ℤ) * 2 ^ smaller := by
  have hplace : place = (place - smaller).toNat + smaller := by omega
  conv_lhs => rw [hplace, zpow_add₀ two_ne_zero, zpow_natCast, ← mul_assoc]
  push_cast
  rfl

/-- Rounding does not pass a multiple of the last place. -/
theorem nearest_le {number : ℚ} (multiple : ℤ) {place : ℤ} (hplace : lastPlace number ≤ place)
    (h : number ≤ multiple * 2 ^ place) : nearest number ≤ multiple * 2 ^ place := by
  have hpos : (0 : ℚ) < 2 ^ lastPlace number := zpow_pos two_pos _
  rw [mul_zpow_eq hplace] at h ⊢
  have hint := nearestInt_mono ((div_le_iff₀ hpos).mpr h)
  rw [nearestInt_intCast] at hint
  exact mul_le_mul_of_nonneg_right (mod_cast hint) hpos.le

theorem le_nearest {number : ℚ} (multiple : ℤ) {place : ℤ} (hplace : lastPlace number ≤ place)
    (h : multiple * 2 ^ place ≤ number) : multiple * 2 ^ place ≤ nearest number := by
  have hneg := nearest_le (-multiple) (lastPlace_neg number ▸ hplace) (by
    rw [Int.cast_neg, neg_mul]
    exact neg_le_neg h)
  rw [nearest_neg, Int.cast_neg, neg_mul] at hneg
  exact neg_le_neg_iff.mp hneg

theorem nearest_nonneg {number : ℚ} (h : 0 ≤ number) : 0 ≤ nearest number := by
  simpa using le_nearest 0 le_rfl (by simpa using h)

/-- Numbers with different last places have a power of two between them, which neither passes when it
is rounded. -/
theorem nearest_mono_of_nonneg {first second : ℚ} (hnonneg : 0 ≤ first) (h : first ≤ second) :
    nearest first ≤ nearest second := by
  rcases hnonneg.eq_or_lt with rfl | hpos
  · rw [nearest_zero]
    exact nearest_nonneg h
  have hpos' : 0 < second := hpos.trans_le h
  have hplaces : lastPlace first ≤ lastPlace second :=
    lastPlace_mono hpos.ne' (by rwa [abs_of_pos hpos, abs_of_pos hpos'])
  rcases hplaces.eq_or_lt with hplace | hplace
  · have hunit : (0 : ℚ) < 2 ^ lastPlace second := zpow_pos two_pos _
    rw [nearest, nearest, hplace]
    exact mul_le_mul_of_nonneg_right
      (mod_cast nearestInt_mono (div_le_div_of_nonneg_right h hunit.le)) hunit.le
  · have hfirst : first ≤ (1 : ℤ) * 2 ^ (lastPlace second + 23) := by
      have hlt := abs_lt_of_lastPlace first
      rw [abs_of_pos hpos] at hlt
      rw [Int.cast_one, one_mul]
      exact hlt.le.trans (zpow_le_zpow_right₀ one_le_two (by omega))
    have hsecond : (1 : ℤ) * 2 ^ (lastPlace second + 23) ≤ second := by
      have hle := le_abs_of_lastPlace hpos'.ne' ((le_lastPlace first).trans_lt hplace)
      rw [abs_of_pos hpos'] at hle
      rwa [Int.cast_one, one_mul]
    exact (nearest_le 1 (by omega) hfirst).trans (le_nearest 1 (by omega) hsecond)

/-- Rounding keeps the order. -/
theorem nearest_mono {first second : ℚ} (h : first ≤ second) : nearest first ≤ nearest second := by
  rcases le_total 0 first with hfirst | hfirst
  · exact nearest_mono_of_nonneg hfirst h
  · rcases le_total 0 second with hsecond | hsecond
    · have hneg : 0 ≤ nearest (-first) := nearest_nonneg (neg_nonneg.mpr hfirst)
      rw [nearest_neg, neg_nonneg] at hneg
      exact hneg.trans (nearest_nonneg hsecond)
    · have hneg := nearest_mono_of_nonneg (neg_nonneg.mpr hsecond) (neg_le_neg h)
      rwa [nearest_neg, nearest_neg, neg_le_neg_iff] at hneg

theorem nearest_nonpos {number : ℚ} (h : number ≤ 0) : nearest number ≤ 0 :=
  (nearest_mono h).trans_eq nearest_zero

/-- A number is rounded to at most twenty-four digits, or to a power of two with one more. -/
theorem abs_nearestInt_le (number : ℚ) :
    |nearestInt (number / 2 ^ lastPlace number)| ≤ 2 ^ 24 := by
  have hquotient : |number / 2 ^ lastPlace number| ≤ (2 ^ 24 : ℤ) := by
    have hunit : (0 : ℚ) < 2 ^ lastPlace number := zpow_pos two_pos _
    have hlt := abs_lt_of_lastPlace number
    rw [zpow_add₀ two_ne_zero, mul_comm] at hlt
    rw [abs_div, abs_of_pos hunit, div_le_iff₀ hunit]
    exact_mod_cast hlt.le
  obtain ⟨hlow, hhigh⟩ := abs_le.mp hquotient
  have hlow := nearestInt_mono hlow
  have hhigh := nearestInt_mono hhigh
  rw [← Int.cast_neg, nearestInt_intCast] at hlow
  rw [nearestInt_intCast] at hhigh
  exact abs_le.mpr ⟨hlow, hhigh⟩

/-- A positive number is rounded to at least twenty-four digits above the smallest place. -/
theorem le_nearestInt {number : ℚ} (hpos : 0 < number) (h : -149 < lastPlace number) :
    2 ^ 23 ≤ nearestInt (number / 2 ^ lastPlace number) := by
  have hquotient : (2 ^ 23 : ℤ) ≤ number / 2 ^ lastPlace number := by
    have hle := le_abs_of_lastPlace hpos.ne' h
    rw [abs_of_pos hpos, zpow_add₀ two_ne_zero, mul_comm] at hle
    rw [le_div_iff₀ (zpow_pos two_pos _)]
    exact_mod_cast hle
  have hmono := nearestInt_mono hquotient
  rwa [nearestInt_intCast] at hmono

/-! ### The grid -/

/-- The numbers of at most twenty-four digits, none of them below the smallest place. -/
def Grid (number : ℚ) : Prop :=
  ∃ (mantissa : ℤ) (place : ℤ), |mantissa| < 2 ^ 24 ∧ -149 ≤ place ∧ number = mantissa * 2 ^ place

/-- A multiple of a place that is too small for more than twenty-four digits is in the grid. -/
theorem grid_of_abs_le {mantissa place : ℤ} (hmantissa : |mantissa| ≤ 2 ^ 24)
    (hplace : -149 ≤ place) : Grid (mantissa * 2 ^ place) := by
  rcases hmantissa.lt_or_eq with hlt | heq
  · exact ⟨mantissa, place, hlt, hplace, rfl⟩
  · have hcarry (sign : ℤ) : ((sign * 2 ^ 24 : ℤ) : ℚ) * 2 ^ place =
        (sign * 2 ^ 23 : ℤ) * 2 ^ (place + 1) := by
      rw [zpow_add_one₀ two_ne_zero]
      push_cast
      ring
    rcases abs_choice mantissa with hsign | hsign
    · exact ⟨1 * 2 ^ 23, place + 1, by norm_num, by omega,
        by rw [← hcarry, one_mul, ← heq, hsign]⟩
    · exact ⟨-1 * 2 ^ 23, place + 1, by norm_num, by omega,
        by rw [← hcarry, neg_one_mul, ← heq, hsign, neg_neg]⟩

/-- Numbers in the grid are not rounded. -/
theorem nearest_of_grid {number : ℚ} (h : Grid number) : nearest number = number := by
  obtain ⟨mantissa, place, hmantissa, hplace, hnumber⟩ := h
  rcases eq_or_ne number 0 with rfl | hne
  · exact nearest_zero
  have hlast : lastPlace number ≤ place := by
    refine lastPlace_le hne hplace ?_
    have hunit : (0 : ℚ) < 2 ^ place := zpow_pos two_pos _
    rw [hnumber, abs_mul, abs_of_pos hunit, zpow_add₀ two_ne_zero, mul_comm]
    exact mul_lt_mul_of_pos_left (mod_cast hmantissa) hunit
  refine le_antisymm ?_ ?_
  · conv_rhs => rw [hnumber]
    exact nearest_le mantissa hlast hnumber.le
  · conv_lhs => rw [hnumber]
    exact le_nearest mantissa hlast hnumber.ge

theorem grid_zero : Grid 0 := ⟨0, 0, by norm_num, by norm_num, by simp⟩

theorem grid_zpow {place : ℤ} (h : -149 ≤ place) : Grid (2 ^ place) :=
  ⟨1, place, by norm_num, h, by rw [Int.cast_one, one_mul]⟩

theorem nearest_zpow {place : ℤ} (h : -149 ≤ place) : nearest (2 ^ place) = 2 ^ place :=
  nearest_of_grid (grid_zpow h)

theorem grid_nearest (number : ℚ) : Grid (nearest number) :=
  grid_of_abs_le (abs_nearestInt_le number) (le_lastPlace number)

/-- A number of the grid is a multiple of every place that it reaches with twenty-four digits. -/
theorem Grid.exists_multiple {number : ℚ} (h : Grid number) {place : ℤ}
    (hle : 2 ^ (place + 23) ≤ |number|) : ∃ multiple : ℤ, number = multiple * 2 ^ place := by
  obtain ⟨mantissa, exponent, hmantissa, -, rfl⟩ := h
  have hplace : place ≤ exponent := by
    by_contra hlt
    have hunit : (0 : ℚ) < 2 ^ exponent := zpow_pos two_pos _
    have hdigits : |(mantissa : ℚ)| * 2 ^ exponent < 2 ^ 24 * 2 ^ exponent :=
      mul_lt_mul_of_pos_right (mod_cast hmantissa) hunit
    have hpower : (2 : ℚ) ^ (24 + exponent) ≤ 2 ^ (place + 23) :=
      zpow_le_zpow_right₀ one_le_two (by omega)
    rw [abs_mul, abs_of_pos hunit] at hle
    rw [zpow_add₀ two_ne_zero] at hpower
    exact absurd hle (not_le.mpr (hdigits.trans_le (mod_cast hpower)))
  exact ⟨_, mul_zpow_eq hplace⟩

/-- Every number of the grid is a multiple of the smallest place. -/
theorem Grid.exists_smallest {number : ℚ} (h : Grid number) :
    ∃ multiple : ℤ, number = multiple * 2 ^ (-149 : ℤ) := by
  obtain ⟨mantissa, place, -, hplace, rfl⟩ := h
  exact ⟨_, mul_zpow_eq hplace⟩

/-- A difference between numbers of the grid is not rounded to zero, however small it is. -/
theorem Grid.nearest_sub_pos {first second : ℚ} (hfirst : Grid first) (hsecond : Grid second)
    (hlt : second < first) : 0 < nearest (first - second) := by
  obtain ⟨multiple, rfl⟩ := hfirst.exists_smallest
  obtain ⟨multiple', rfl⟩ := hsecond.exists_smallest
  have hunit : (0 : ℚ) < 2 ^ (-149 : ℤ) := zpow_pos two_pos _
  have hmultiples : multiple' + 1 ≤ multiple := mod_cast lt_of_mul_lt_mul_right hlt hunit.le
  have hunit_le : (2 : ℚ) ^ (-149 : ℤ) ≤
      multiple * 2 ^ (-149 : ℤ) - multiple' * 2 ^ (-149 : ℤ) := by
    have hone : (1 : ℚ) ≤ multiple - multiple' := le_sub_iff_add_le'.mpr (mod_cast hmultiples)
    rw [← sub_mul]
    exact le_mul_of_one_le_left hunit.le hone
  have hsmallest : Grid (2 ^ (-149 : ℤ)) := ⟨1, -149, by norm_num, le_rfl, by norm_num⟩
  exact (hunit.trans_eq (nearest_of_grid hsmallest).symm).trans_le (nearest_mono hunit_le)

/-! ### Numbers next to zero -/

/-- A number from zero up to half of the smallest place is rounded to zero. -/
theorem nearest_eq_zero_of_nonneg {number : ℚ} (hnonneg : 0 ≤ number)
    (h : number ≤ 2 ^ (-150 : ℤ)) : nearest number = 0 := by
  rcases hnonneg.eq_or_lt with rfl | hpos
  · exact nearest_zero
  have hplace : lastPlace number = -149 := by
    refine le_antisymm (lastPlace_le hpos.ne' le_rfl ?_) (le_lastPlace number)
    rw [abs_of_pos hpos]
    exact h.trans_lt (zpow_lt_zpow_right₀ one_lt_two (by norm_num))
  have hunit : (0 : ℚ) < 2 ^ (-149 : ℤ) := zpow_pos two_pos _
  have hhalf : number / 2 ^ (-149 : ℤ) ≤ 1 / 2 := by
    rw [div_le_iff₀ hunit]
    exact h.trans_eq (by norm_num)
  have hfloor : ⌊number / 2 ^ (-149 : ℤ)⌋ = 0 := by
    rw [Int.floor_eq_zero_iff]
    exact ⟨by positivity, hhalf.trans_lt (by norm_num)⟩
  rw [nearest, hplace, nearestInt, hfloor, Int.cast_zero, sub_zero, if_neg hhalf.not_gt]
  simp

/-- The numbers that are rounded to zero. -/
theorem nearest_eq_zero_iff {number : ℚ} : nearest number = 0 ↔ |number| ≤ 2 ^ (-150 : ℤ) := by
  constructor
  · intro hzero
    rcases eq_or_ne number 0 with rfl | hne
    · rw [abs_zero]
      exact (zpow_pos two_pos _).le
    have herror := abs_nearest_sub_le number
    rw [hzero, zero_sub, abs_neg] at herror
    have hplace : lastPlace number = -149 := by
      by_contra hlarge
      have hle := le_abs_of_lastPlace hne ((le_lastPlace number).lt_of_ne' hlarge)
      have hlt : (2 : ℚ) ^ lastPlace number < 2 ^ (lastPlace number + 23) :=
        zpow_lt_zpow_right₀ one_lt_two (by omega)
      have hpos : (0 : ℚ) < 2 ^ lastPlace number := zpow_pos two_pos _
      linarith
    rw [hplace] at herror
    exact herror.trans_eq (by norm_num)
  · intro hle
    rcases le_total 0 number with hnonneg | hnonpos
    · rw [abs_of_nonneg hnonneg] at hle
      exact nearest_eq_zero_of_nonneg hnonneg hle
    · rw [abs_of_nonpos hnonpos] at hle
      have hneg := nearest_eq_zero_of_nonneg (neg_nonneg.mpr hnonpos) hle
      rwa [nearest_neg, neg_eq_zero] at hneg

end Lindenmayer.Single
