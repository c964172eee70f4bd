import Lindenmayer.Proofs.Single.Decimal

/-!
# Counts as singles

A natural number becomes a single by rounding (`isRounded_ofNat`), so different counts may become
one single. The quotient of two counts is rounded three times. For all that, a count divided by one
that is not smaller is between zero and one (`fraction_spec`), more of the same is no less
(`fraction_mono`), and the whole is exactly one (`fraction_self`).
-/

set_option autoImplicit false

namespace Lindenmayer.Single

/-! ### Counts -/

/-- A natural number is rounded to the nearest single. -/
theorem isRounded_ofNat (count : Nat) : IsRounded (Float32.ofNat count) count := by
  have hround := isRounded_ofScientific count 0
  rwa [zpow_zero, mul_one] at hround

/-- The counts of a machine word are finite singles. -/
theorem ofNat_spec {count : Nat} (hpos : 0 < count) (hword : count < 2 ^ 64) :
    (Float32.ofNat count).isFinite = true ∧ 1 ≤ value (Float32.ofNat count) ∧
      value (Float32.ofNat count) ≤ 2 ^ (64 : ℤ) := by
  have hone : Grid 1 := by simpa using grid_zpow (show (-149 : ℤ) ≤ 0 by norm_num)
  exact (isRounded_ofNat count).of_between_grid hone (grid_zpow (by norm_num))
    (by norm_num [largest]) (by norm_num [largest]) (mod_cast hpos) (mod_cast hword.le)

theorem value_ofNat_mono {first second : Nat} (hpos : 0 < first) (hle : first ≤ second)
    (hword : second < 2 ^ 64) : value (Float32.ofNat first) ≤ value (Float32.ofNat second) := by
  rw [← level_le_iff (ofNat_spec hpos (hle.trans_lt hword)).1
    (ofNat_spec (hpos.trans_le hle) hword).1]
  exact (isRounded_ofNat first).level_mono (isRounded_ofNat second) (mod_cast hle)

/-! ### Fractions -/

section Fractions

variable {part whole : Nat} (hpos : 0 < part) (hle : part ≤ whole) (hword : whole < 2 ^ 64)

include hpos hle hword

theorem isRounded_fraction : IsRounded (Float32.ofNat part / Float32.ofNat whole)
    (value (Float32.ofNat part) / value (Float32.ofNat whole)) := by
  obtain ⟨hpart, -, -⟩ := ofNat_spec hpos (hle.trans_lt hword)
  obtain ⟨hwhole, hone, -⟩ := ofNat_spec (hpos.trans_le hle) hword
  exact isRounded_div hpart hwhole (one_pos.trans_le hone).ne'

/-- A part of a whole is between zero and one, and not zero. -/
theorem fraction_spec : (Float32.ofNat part / Float32.ofNat whole).isFinite = true ∧
    0 < value (Float32.ofNat part / Float32.ofNat whole) ∧
      value (Float32.ofNat part / Float32.ofNat whole) ≤ 1 := by
  obtain ⟨-, hone, -⟩ := ofNat_spec hpos (hle.trans_lt hword)
  obtain ⟨-, hone', hlarge⟩ := ofNat_spec (hpos.trans_le hle) hword
  have hwhole : 0 < value (Float32.ofNat whole) := one_pos.trans_le hone'
  have hsmall : (2 : ℚ) ^ (-64 : ℤ) ≤ value (Float32.ofNat part) / value (Float32.ofNat whole) := by
    rw [le_div_iff₀ hwhole]
    calc (2 : ℚ) ^ (-64 : ℤ) * value (Float32.ofNat whole)
        ≤ 2 ^ (-64 : ℤ) * 2 ^ (64 : ℤ) :=
          mul_le_mul_of_nonneg_left hlarge (zpow_pos two_pos _).le
      _ = 1 := by norm_num
      _ ≤ value (Float32.ofNat part) := hone
  have hgrid : Grid 1 := value_one ▸ grid_value 1
  obtain ⟨hfinite, hlow, hhigh⟩ := (isRounded_fraction hpos hle hword).of_between_grid
    (grid_zpow (by norm_num)) hgrid (by norm_num [largest]) (by norm_num [largest]) hsmall
    ((div_le_one hwhole).mpr (value_ofNat_mono hpos hle hword))
  exact ⟨hfinite, (zpow_pos two_pos _).trans_le hlow, hhigh⟩

end Fractions

/-- More parts of a whole are not less of it. -/
theorem fraction_mono {part more whole : Nat} (hpos : 0 < part) (hmore : part ≤ more)
    (hle : more ≤ whole) (hword : whole < 2 ^ 64) :
    value (Float32.ofNat part / Float32.ofNat whole) ≤
      value (Float32.ofNat more / Float32.ofNat whole) := by
  have hpos' := hpos.trans_le hmore
  obtain ⟨-, hone, -⟩ := ofNat_spec (hpos'.trans_le hle) hword
  rw [← level_le_iff (fraction_spec hpos (hmore.trans hle) hword).1
    (fraction_spec hpos' hle hword).1]
  exact (isRounded_fraction hpos (hmore.trans hle) hword).level_mono
    (isRounded_fraction hpos' hle hword) (div_le_div_of_nonneg_right
      (value_ofNat_mono hpos hmore (hle.trans_lt hword)) (zero_le_one.trans hone))

/-- The whole is exactly one. -/
theorem fraction_self {whole : Nat} (hpos : 0 < whole) (hword : whole < 2 ^ 64) :
    Float32.ofNat whole / Float32.ofNat whole = 1 := by
  obtain ⟨hwhole, hone, -⟩ := ofNat_spec hpos hword
  exact div_self_eq_one hwhole (one_pos.trans_le hone).ne'

end Lindenmayer.Single
