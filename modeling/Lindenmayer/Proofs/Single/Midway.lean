import Lindenmayer.Proofs.Single.Nearest
import Mathlib.Algebra.Order.Field.Power

/-!
# Between two singles

Rounding changes its result in the middle between two neighbours of the grid. Such a middle has one
binary digit more than the numbers of the grid, so it lies in the `HalfGrid`, as do the powers of
two at which the last place changes. Numbers between which there is no number of the half grid are
therefore rounded alike (`nearest_eq_of_gap`), unless the lowest of them is `Halfway` itself and
goes to the neighbour below: numbers right above it go to the one above (`lt_nearest_of_gap`).

A number of the half grid has few decimal digits. If a decimal number is cut after a hundred and
thirteen digits, no number of the half grid lies between what is left and the next number of as
many digits (`HalfGrid.not_between`). Unless the number is halfway, it does not matter to rounding
which digits are cut off, but only that there are some (`nearest_eq_of_digits`).
-/

set_option autoImplicit false

namespace Lindenmayer.Single

/-- The numbers of at most twenty-five digits, none of them below half of the smallest place. -/
def HalfGrid (number : ℚ) : Prop :=
  ∃ (mantissa : ℤ) (place : ℤ), |mantissa| < 2 ^ 25 ∧ -150 ≤ place ∧ number = mantissa * 2 ^ place

/-- A number in the middle between two multiples of its last place. -/
def Halfway (number : ℚ) : Prop := Int.fract (number / 2 ^ lastPlace number) = 1 / 2

theorem halfGrid_zpow {place : ℤ} (h : -150 ≤ place) : HalfGrid (2 ^ place) :=
  ⟨1, place, by norm_num, h, by rw [Int.cast_one, one_mul]⟩

/-- A multiple of half of a place is in the half grid if the grid has digits down to the place. -/
theorem halfGrid_of_abs_lt {multiple place : ℤ} (hplace : -149 ≤ place)
    (h : |(multiple : ℚ) * 2 ^ (place - 1)| < 2 ^ (place + 24)) :
    HalfGrid (multiple * 2 ^ (place - 1)) := by
  refine ⟨multiple, place - 1, ?_, by omega, rfl⟩
  have hunit : (0 : ℚ) < 2 ^ (place - 1) := zpow_pos two_pos _
  rw [abs_mul, abs_of_pos hunit, show place + 24 = 25 + (place - 1) by ring,
    zpow_add₀ two_ne_zero] at h
  exact_mod_cast lt_of_mul_lt_mul_right h hunit.le

theorem mul_half_place (multiple place : ℤ) :
    (multiple : ℚ) * 2 ^ (place - 1) = multiple / 2 * 2 ^ place := by
  rw [zpow_sub_one₀ two_ne_zero]
  ring

theorem Halfway.halfGrid {number : ℚ} (h : Halfway number) : HalfGrid number := by
  have hunit : (2 : ℚ) ^ lastPlace number ≠ 0 := zpow_ne_zero _ two_ne_zero
  have hnumber : number = (2 * ⌊number / 2 ^ lastPlace number⌋ + 1 : ℤ) *
      2 ^ (lastPlace number - 1) := by
    rw [Halfway, Int.fract] at h
    rw [mul_half_place, ← div_eq_iff hunit]
    push_cast
    linarith
  rw [hnumber]
  refine halfGrid_of_abs_lt (le_lastPlace number) ?_
  rw [← hnumber]
  exact abs_lt_of_lastPlace number

/-! ### Numbers without a middle between them -/

/-- Which integer is nearest is told by the half below a number: it is the integer below that, or
the one above if the half is none, unless the number is in a middle and goes down. -/
theorem nearestInt_eq_of_le {number : ℚ}
    (h : Int.fract number = 1 / 2 → number ≤ nearestInt number) :
    nearestInt number = (⌊2 * number⌋ + 1) / 2 := by
  have hlow := Int.floor_le number
  have hhigh := Int.lt_floor_add_one number
  rw [Int.fract] at h
  rcases lt_or_ge (number - ⌊number⌋) (1 / 2) with hbelow | habove
  · have hfloor : ⌊2 * number⌋ = 2 * ⌊number⌋ := by
      rw [Int.floor_eq_iff]
      push_cast
      constructor <;> linarith
    rw [nearestInt, if_pos hbelow, hfloor]
    omega
  · have hfloor : ⌊2 * number⌋ = 2 * ⌊number⌋ + 1 := by
      rw [Int.floor_eq_iff]
      push_cast
      constructor <;> linarith
    have hup : nearestInt number = ⌊number⌋ + 1 := by
      rw [nearestInt, if_neg habove.not_gt] at h ⊢
      split_ifs at h ⊢ with hhalf
      · rfl
      · have hmiddle : number - ⌊number⌋ = 1 / 2 := le_antisymm (not_lt.mp hhalf) habove
        have hodd : ((0 : ℤ) : ℚ) < (⌊number⌋ % 2 : ℤ) := by
          have hle := h hmiddle
          push_cast at hle ⊢
          linarith
        have hparity := Int.cast_lt.mp hodd
        omega
    rw [hup, hfloor]
    omega

/-- Numbers with the same half below them have the same nearest integer. -/
theorem nearestInt_eq_of_floor {first second : ℚ} (h : ⌊2 * first⌋ = ⌊2 * second⌋)
    (hfirst : Int.fract first = 1 / 2 → first ≤ nearestInt first)
    (hsecond : Int.fract second = 1 / 2 → second ≤ nearestInt second) :
    nearestInt first = nearestInt second := by
  rw [nearestInt_eq_of_le hfirst, nearestInt_eq_of_le hsecond, h]

section Gap

variable {low high : ℚ} (hlow : 0 < low)
  (hgap : ∀ number, low < number → number < high → ¬ HalfGrid number)

include hlow hgap

/-- Where there is no power of two between two numbers they have the same last place. -/
theorem lastPlace_le_of_gap {first second : ℚ} (hfirst : low ≤ first) (hsecond : low ≤ second)
    (hhigh : second < high) : lastPlace second ≤ lastPlace first := by
  by_contra hlt
  rw [not_le] at hlt
  have hpos := hlow.trans_le hfirst
  have hpos' := hlow.trans_le hsecond
  have hbelow := abs_lt_of_lastPlace first
  have habove := le_abs_of_lastPlace hpos'.ne' ((le_lastPlace first).trans_lt hlt)
  rw [abs_of_pos hpos] at hbelow
  rw [abs_of_pos hpos'] at habove
  have hpower : (2 : ℚ) ^ (lastPlace first + 24) ≤ 2 ^ (lastPlace second + 23) :=
    zpow_le_zpow_right₀ one_le_two (by omega)
  have hplace := le_lastPlace second
  exact hgap _ (hfirst.trans_lt (hbelow.trans_le hpower)) (habove.trans_lt hhigh)
    (halfGrid_zpow (by omega))

/-- A multiple of half of the last place does not lie between two numbers either. -/
theorem floor_le_of_gap {first second : ℚ} (hfirst : low ≤ first) (hsecond : low ≤ second)
    (hhigh : second < high) {place : ℤ} (hplace : lastPlace second = place) :
    ⌊2 * (second / 2 ^ place)⌋ ≤ ⌊2 * (first / 2 ^ place)⌋ := by
  by_contra hlt
  rw [not_le, Int.floor_lt] at hlt
  have hunit : (0 : ℚ) < 2 ^ place := zpow_pos two_pos _
  have hpos := hlow.trans_le hsecond
  generalize hmultiple : ⌊2 * (second / 2 ^ place)⌋ = multiple at hlt
  obtain ⟨hle, -⟩ := Int.floor_eq_iff.mp hmultiple
  have hbelow : first < multiple * 2 ^ (place - 1) := by
    rw [mul_half_place, ← div_lt_iff₀ hunit]
    linarith
  have habove : multiple * 2 ^ (place - 1) ≤ second := by
    rw [mul_half_place, ← le_div_iff₀ hunit]
    linarith
  have hdigits := abs_lt_of_lastPlace second
  rw [abs_of_pos hpos, hplace] at hdigits
  refine hgap _ (hfirst.trans_lt hbelow) (habove.trans_lt hhigh)
    (halfGrid_of_abs_lt (hplace ▸ le_lastPlace second) ?_)
  rw [abs_of_pos (hlow.trans (hfirst.trans_lt hbelow))]
  exact habove.trans_lt hdigits

section Alike

variable {first second : ℚ} (hfirst : low ≤ first) (hfirst' : first < high) (hsecond : low < second)
  (hsecond' : second < high)

include hfirst hfirst' hsecond hsecond'

theorem lastPlace_eq_of_gap : lastPlace second = lastPlace first :=
  le_antisymm (lastPlace_le_of_gap hlow hgap hfirst hsecond.le hsecond')
    (lastPlace_le_of_gap hlow hgap hsecond.le hfirst hfirst')

theorem floor_eq_of_gap :
    ⌊2 * (second / 2 ^ lastPlace first)⌋ = ⌊2 * (first / 2 ^ lastPlace first)⌋ :=
  le_antisymm
    (floor_le_of_gap hlow hgap hfirst hsecond.le hsecond'
      (lastPlace_eq_of_gap hlow hgap hfirst hfirst' hsecond hsecond'))
    (floor_le_of_gap hlow hgap hsecond.le hfirst hfirst' rfl)

theorem fract_ne_of_gap : Int.fract (second / 2 ^ lastPlace first) ≠ 1 / 2 := by
  rw [← lastPlace_eq_of_gap hlow hgap hfirst hfirst' hsecond hsecond']
  exact fun h ↦ hgap second hsecond hsecond' (Halfway.halfGrid h)

/-- Numbers between which there is no number of the half grid are rounded alike, if the one that can
be as low as the lower bound is in no middle or does not go down from there. -/
theorem nearest_eq_of_gap (hmiddle : Halfway first → first ≤ nearest first) :
    nearest second = nearest first := by
  have hunit : (0 : ℚ) < 2 ^ lastPlace first := zpow_pos two_pos _
  rw [nearest, nearest, lastPlace_eq_of_gap hlow hgap hfirst hfirst' hsecond hsecond']
  congr 2
  refine nearestInt_eq_of_floor (floor_eq_of_gap hlow hgap hfirst hfirst' hsecond hsecond')
    (fun hhalf ↦ absurd hhalf (fract_ne_of_gap hlow hgap hfirst hfirst' hsecond hsecond'))
    fun hhalf ↦ ?_
  rw [div_le_iff₀ hunit]
  exact hmiddle hhalf

/-- A number right above a middle goes up. -/
theorem lt_nearest_of_gap (hmiddle : Halfway first) : first < nearest second := by
  have hunit : (0 : ℚ) < 2 ^ lastPlace first := zpow_pos two_pos _
  have hfloor := floor_eq_of_gap hlow hgap hfirst hfirst' hsecond hsecond'
  have hhalves : 2 * (first / 2 ^ lastPlace first) =
      (2 * ⌊first / 2 ^ lastPlace first⌋ + 1 : ℤ) := by
    rw [Halfway, Int.fract] at hmiddle
    push_cast
    linarith
  rw [nearest, lastPlace_eq_of_gap hlow hgap hfirst hfirst' hsecond hsecond', nearestInt_eq_of_le
    fun hhalf ↦ absurd hhalf (fract_ne_of_gap hlow hgap hfirst hfirst' hsecond hsecond'),
    hfloor, hhalves, Int.floor_intCast, ← div_lt_iff₀ hunit]
  have hcarry : (2 * ⌊first / 2 ^ lastPlace first⌋ + 1 + 1) / 2 =
      ⌊first / 2 ^ lastPlace first⌋ + 1 := by omega
  rw [hcarry]
  push_cast at hhalves ⊢
  linarith

end Alike

end Gap

/-! ### Decimal digits -/

/-- No number of the half grid lies between two neighbouring decimal numbers of more than a hundred
and twelve digits: if it has places after the last digit it is too small, and otherwise it is a
whole number of the last digit. -/
theorem HalfGrid.not_between {number : ℚ} (h : HalfGrid number) {digits : Nat}
    (hdigits : 10 ^ 112 ≤ digits) {exponent : ℤ} (hexponent : exponent < 0)
    (hlow : digits * 10 ^ exponent < number) : (digits + 1 : ℕ) * 10 ^ exponent ≤ number := by
  obtain ⟨mantissa, place, hmantissa, hplace, rfl⟩ := h
  obtain ⟨shift, rfl⟩ : ∃ shift : Nat, exponent = -(shift : ℤ) := ⟨exponent.natAbs, by omega⟩
  have hpower : (0 : ℚ) < 10 ^ shift := by positivity
  have hscaled : (mantissa : ℚ) * 2 ^ place * 10 ^ shift =
      mantissa * 5 ^ shift * 2 ^ (place + shift) := by
    rw [zpow_add₀ two_ne_zero, zpow_natCast, show (10 : ℚ) = 5 * 2 by norm_num, mul_pow]
    ring
  rw [zpow_neg, zpow_natCast, ← div_eq_mul_inv] at hlow ⊢
  rw [div_lt_iff₀ hpower, hscaled] at hlow
  rw [div_le_iff₀ hpower, hscaled]
  rcases lt_or_ge (place + shift) 0 with hneg | hnonneg
  · have hmantissa : (mantissa : ℚ) ≤ 2 ^ 25 := by
      exact_mod_cast (le_abs_self mantissa).trans hmantissa.le
    have hfive : (5 : ℚ) ^ shift ≤ 5 ^ 149 := pow_le_pow_right₀ (by norm_num) (by omega)
    have hplaces : (2 : ℚ) ^ (place + shift) ≤ 2 ^ (-1 : ℤ) :=
      zpow_le_zpow_right₀ one_le_two (by omega)
    have hsmall : (mantissa : ℚ) * 5 ^ shift * 2 ^ (place + shift) ≤ 10 ^ 112 :=
      calc (mantissa : ℚ) * 5 ^ shift * 2 ^ (place + shift)
          ≤ 2 ^ 25 * 5 ^ 149 * 2 ^ (-1 : ℤ) := by gcongr
        _ ≤ 10 ^ 112 := by norm_num
    have hlarge : (10 ^ 112 : ℚ) ≤ digits := mod_cast hdigits
    exact absurd (hlow.trans_le hsmall) (not_lt.mpr hlarge)
  · obtain ⟨rest, hrest⟩ : ∃ rest : Nat, place + shift = rest := ⟨(place + shift).toNat, by omega⟩
    rw [hrest, zpow_natCast] at hlow ⊢
    have hwhole : (digits : ℤ) < mantissa * 5 ^ shift * 2 ^ rest := by exact_mod_cast hlow
    exact_mod_cast Int.add_one_le_of_lt hwhole

section Digits

variable {digits : Nat} (hdigits : 10 ^ 112 ≤ digits) {exponent : ℤ} (hexponent : exponent < 0)
  {first second : ℚ} (hfirst : digits * 10 ^ exponent ≤ first)
  (hfirst' : first < (digits + 1 : ℕ) * 10 ^ exponent) (hsecond : digits * 10 ^ exponent < second)
  (hsecond' : second < (digits + 1 : ℕ) * 10 ^ exponent)

include hdigits hexponent hfirst hfirst' hsecond hsecond'

/-- Of the digits after the first hundred and thirteen it matters only that there are some, unless
the number is in a middle and goes down. -/
theorem nearest_eq_of_digits (hmiddle : Halfway first → first ≤ nearest first) :
    nearest second = nearest first := by
  have hdigits_pos : 0 < digits := (Nat.pow_pos (by decide)).trans_le hdigits
  exact nearest_eq_of_gap (by positivity)
    (fun _ hlow hhigh hgrid ↦ hhigh.not_ge (hgrid.not_between hdigits hexponent hlow))
    hfirst hfirst' hsecond hsecond' hmiddle

/-- With one more digit a number in a middle goes up. -/
theorem lt_nearest_of_digits (hmiddle : Halfway first) : first < nearest second := by
  have hdigits_pos : 0 < digits := (Nat.pow_pos (by decide)).trans_le hdigits
  exact lt_nearest_of_gap (by positivity)
    (fun _ hlow hhigh hgrid ↦ hhigh.not_ge (hgrid.not_between hdigits hexponent hlow))
    hfirst hfirst' hsecond hsecond' hmiddle

end Digits

end Lindenmayer.Single
