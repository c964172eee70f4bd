import Lindenmayer.Proofs.Single.Arithmetic

/-!
# The order of all singles

Infinities have a place among the numbers too, one at each end: `level` is the value of a finite
single and one of the two ends for an infinite one. A comparison tells which of two levels is the
smaller one, and it is false of whatever is not a number (`lt_iff_level`, `le_iff_level`).

Rounding keeps the order even where results are beyond the largest single
(`IsRounded.level_mono`), and a result between two singles is between them after rounding
(`IsRounded.of_between`). A sum with something that is not a number is none either
(`isNaN_of_add`), one with an infinity is not finite (`isFinite_of_add`), and adding what is not
below zero never leads downwards (`level_le_level_add`). A positive part of an infinity is that
infinity (`parts_infinity_mul`), and no square root is below zero (`level_sqrt_nonneg`).
-/

set_option autoImplicit false

namespace Lindenmayer.Single

open Float.Model (Format UnpackedFloat)
open Float.Model.UnpackedFloat

/-! ### Levels -/

/-- The place of a number among all numbers, with the infinities at the ends. What is not a number
has the place of zero, which no comparison asks for. -/
def rank : UnpackedFloat → WithBot (WithTop ℚ)
  | .infinity .negative => ⊥
  | .infinity .positive => (⊤ : WithTop ℚ)
  | unpacked => ((exactValue unpacked : WithTop ℚ) : WithBot (WithTop ℚ))

/-- The place of a single among all of them. -/
def level (number : Float32) : WithBot (WithTop ℚ) := rank (parts number)

theorem isNaN_eq (number : Float32) : number.isNaN = (parts number).isNaN := rfl

theorem rank_of_isFinite {unpacked : UnpackedFloat} (h : unpacked.isFinite = true) :
    rank unpacked = ((exactValue unpacked : WithTop ℚ) : WithBot (WithTop ℚ)) := by
  cases unpacked with
  | infinity sign => cases h
  | _ => rfl

theorem level_of_isFinite {number : Float32} (h : number.isFinite = true) :
    level number = ((value number : WithTop ℚ) : WithBot (WithTop ℚ)) := rank_of_isFinite h

theorem level_le_iff {first second : Float32} (hfirst : first.isFinite = true)
    (hsecond : second.isFinite = true) :
    level first ≤ level second ↔ value first ≤ value second := by
  rw [level_of_isFinite hfirst, level_of_isFinite hsecond, WithBot.coe_le_coe, WithTop.coe_le_coe]

theorem compare_coe (first second : ℚ) :
    compare ((first : WithTop ℚ) : WithBot (WithTop ℚ)) (second : WithTop ℚ) =
      compare first second := by
  rcases lt_trichotomy first second with hlt | rfl | hgt
  · rw [compare_lt_iff_lt.mpr hlt, compare_lt_iff_lt]
    exact_mod_cast hlt
  · rw [compare_eq_iff_eq.mpr rfl, compare_eq_iff_eq.mpr rfl]
  · rw [compare_gt_iff_gt.mpr hgt, compare_gt_iff_gt]
    exact_mod_cast hgt

/-- A number that is neither undefined nor finite is an infinity. -/
theorem exists_eq_infinity {unpacked : UnpackedFloat} (hnumber : unpacked.isNaN = false)
    (h : unpacked.isFinite = false) : ∃ sign, unpacked = .infinity sign := by
  cases unpacked with
  | infinity sign => exact ⟨sign, rfl⟩
  | notANumber => cases hnumber
  | zero sign => cases h
  | finite sign mantissa exponent hpos => cases h

theorem exists_parts_eq_infinity {number : Float32} (hnumber : number.isNaN = false)
    (h : number.isFinite = false) : ∃ sign, parts number = .infinity sign :=
  exists_eq_infinity hnumber h

/-- Finite numbers lie between the infinities. -/
theorem compare_infinity (sign : Sign) {number : UnpackedFloat} (h : number.isFinite = true) :
    number.compare (.infinity sign) = some (compare (rank number) (rank (.infinity sign))) ∧
      UnpackedFloat.compare (.infinity sign) number =
        some (compare (rank (.infinity sign)) (rank number)) := by
  cases sign with
  | positive =>
    have hlt : rank number < rank (.infinity .positive) := by
      rw [rank_of_isFinite h, rank]
      exact WithBot.coe_lt_coe.mpr (WithTop.coe_lt_top _)
    rw [compare_lt_iff_lt.mpr hlt, compare_gt_iff_gt.mpr hlt]
    cases number with
    | zero sign => exact ⟨rfl, rfl⟩
    | finite sign mantissa exponent hpos => exact ⟨rfl, rfl⟩
    | infinity sign => cases h
    | notANumber => cases h
  | negative =>
    have hgt : rank (.infinity .negative) < rank number := by
      rw [rank_of_isFinite h, rank]
      exact WithBot.bot_lt_coe _
    rw [compare_gt_iff_gt.mpr hgt, compare_lt_iff_lt.mpr hgt]
    cases number with
    | zero sign => exact ⟨rfl, rfl⟩
    | finite sign mantissa exponent hpos => exact ⟨rfl, rfl⟩
    | infinity sign => cases h
    | notANumber => cases h

/-- Canonical numbers are compared by their places. -/
theorem compare_rank {first second : UnpackedFloat} (hfirst : first.isNaN = false)
    (hsecond : second.isNaN = false) (hcanonical : Canonical first)
    (hcanonical' : Canonical second) :
    first.compare second = some (compare (rank first) (rank second)) := by
  cases hfinite : first.isFinite with
  | true =>
    cases hfinite' : second.isFinite with
    | true =>
      rw [compare_eq hfinite hfinite' hcanonical hcanonical', rank_of_isFinite hfinite,
        rank_of_isFinite hfinite', compare_coe]
    | false =>
      obtain ⟨sign', rfl⟩ := exists_eq_infinity hsecond hfinite'
      exact (compare_infinity sign' hfinite).1
  | false =>
    obtain ⟨sign, rfl⟩ := exists_eq_infinity hfirst hfinite
    cases hfinite' : second.isFinite with
    | true => exact (compare_infinity sign hfinite').2
    | false =>
      obtain ⟨sign', rfl⟩ := exists_eq_infinity hsecond hfinite'
      cases sign <;> cases sign' <;> rfl

theorem compare_of_isNaN {first second : UnpackedFloat}
    (h : first.isNaN = true ∨ second.isNaN = true) : first.compare second = none := by
  rcases h with h | h
  · obtain rfl := isNaN_iff.mp h
    rfl
  · obtain rfl := isNaN_iff.mp h
    cases first <;> rfl

/-- Less-than compares levels and is false of what is not a number. -/
theorem lt_iff_level {first second : Float32} :
    first < second ↔ first.isNaN = false ∧ second.isNaN = false ∧ level first < level second := by
  have hcompare : first < second ↔ ((parts first).compare (parts second) == some .lt) = true :=
    decide_eq_true_iff
  rw [hcompare, isNaN_eq, isNaN_eq]
  cases hfirst : (parts first).isNaN with
  | true => simp [compare_of_isNaN (.inl hfirst)]
  | false =>
    cases hsecond : (parts second).isNaN with
    | true => simp [compare_of_isNaN (.inr hsecond)]
    | false =>
      rw [compare_rank hfirst hsecond (canonical_parts first).1 (canonical_parts second).1,
        beq_iff_eq, Option.some_inj, compare_lt_iff_lt]
      simp [level]

/-- Less-or-equal compares levels and is false of what is not a number. -/
theorem le_iff_level {first second : Float32} :
    first ≤ second ↔ first.isNaN = false ∧ second.isNaN = false ∧ level first ≤ level second := by
  have hcompare : first ≤ second ↔ ((parts first).compare (parts second)).any (·.isLE) = true :=
    decide_eq_true_iff
  rw [hcompare, isNaN_eq, isNaN_eq]
  cases hfirst : (parts first).isNaN with
  | true => simp [compare_of_isNaN (.inl hfirst)]
  | false =>
    cases hsecond : (parts second).isNaN with
    | true => simp [compare_of_isNaN (.inr hsecond)]
    | false =>
      rw [compare_rank hfirst hsecond (canonical_parts first).1 (canonical_parts second).1,
        Option.any_some, ← Ordering.ne_gt_iff_isLE, ← compare_le_iff_le]
      simp [level]

protected theorem le_trans {first second third : Float32} (h : first ≤ second)
    (h' : second ≤ third) : first ≤ third := by
  obtain ⟨hfirst, -, hlevel⟩ := le_iff_level.mp h
  obtain ⟨-, hthird, hlevel'⟩ := le_iff_level.mp h'
  exact le_iff_level.mpr ⟨hfirst, hthird, hlevel.trans hlevel'⟩

protected theorem not_le_of_lt {first second : Float32} (h : first < second) : ¬ second ≤ first :=
  fun hle ↦ (lt_iff_level.mp h).2.2.not_ge (le_iff_level.mp hle).2.2

/-- Two numbers are in one order or the other. -/
protected theorem lt_of_not_le {first second : Float32} (hfirst : first.isNaN = false)
    (hsecond : second.isNaN = false) (h : ¬ first ≤ second) : second < first :=
  lt_iff_level.mpr ⟨hsecond, hfirst, not_le.mp fun hle ↦
    h (le_iff_level.mpr ⟨hfirst, hsecond, hle⟩)⟩

protected theorem le_of_not_lt {first second : Float32} (hfirst : first.isNaN = false)
    (hsecond : second.isNaN = false) (h : ¬ first < second) : second ≤ first :=
  le_iff_level.mpr ⟨hsecond, hfirst, not_lt.mp fun hlt ↦
    h (lt_iff_level.mpr ⟨hfirst, hsecond, hlt⟩)⟩

/-- Numbers that are equal are in order. -/
theorem le_of_beq {first second : Float32} (h : (first == second) = true) : first ≤ second := by
  have hcompare : ((parts first).compare (parts second) == some .eq) = true := h
  have hle : ((parts first).compare (parts second)).any (·.isLE) = true := by
    rw [beq_iff_eq.mp hcompare]
    rfl
  exact decide_eq_true hle

theorem isNaN_of_isFinite {number : Float32} (h : number.isFinite = true) :
    number.isNaN = false := by
  rw [isFinite_eq] at h
  rw [isNaN_eq]
  cases hparts : parts number with
  | notANumber => rw [hparts] at h; cases h
  | _ => rfl

/-- What lies between two finite singles is finite. -/
theorem isFinite_of_le_of_le {number low high : Float32} (hlow : low.isFinite = true)
    (hhigh : high.isFinite = true) (hle : low ≤ number) (hle' : number ≤ high) :
    number.isFinite = true := by
  obtain ⟨-, hnumber, hle⟩ := le_iff_level.mp hle
  obtain ⟨-, -, hle'⟩ := le_iff_level.mp hle'
  cases hfinite : number.isFinite with
  | true => rfl
  | false =>
    obtain ⟨sign, hparts⟩ := exists_parts_eq_infinity hnumber hfinite
    rw [level_of_isFinite hlow, level, hparts] at hle
    rw [level_of_isFinite hhigh, level, hparts] at hle'
    cases sign with
    | negative => exact absurd hle (not_le.mpr (WithBot.bot_lt_coe _))
    | positive =>
      exact absurd hle' (not_le.mpr (WithBot.coe_lt_coe.mpr (WithTop.coe_lt_top _)))

/-! ### Rounding -/

/-- A finite single is the rounding of its own value. -/
theorem isRounded_value {number : Float32} (h : number.isFinite = true) :
    IsRounded number (value number) := by
  rw [IsRounded, nearest_of_grid (grid_value number), if_pos (abs_value_le number)]
  exact ⟨h, rfl⟩

/-- The place of a rounded result. -/
theorem IsRounded.level_eq {result : Float32} {exact : ℚ} (h : IsRounded result exact) :
    level result =
      if |nearest exact| ≤ largest then ((nearest exact : WithTop ℚ) : WithBot (WithTop ℚ))
      else if exact < 0 then ⊥ else ((⊤ : WithTop ℚ) : WithBot (WithTop ℚ)) := by
  rw [IsRounded] at h
  split_ifs at h ⊢
  · rw [level_of_isFinite h.1, h.2]
  · rw [level, h, rank]
  · rw [level, h, rank]

/-- Rounding keeps the order, also where it leads to an infinity: one on the wrong side would take
the other result beyond the largest single with it. -/
theorem IsRounded.level_mono {first second : Float32} {exact exact' : ℚ}
    (hfirst : IsRounded first exact) (hsecond : IsRounded second exact') (hle : exact ≤ exact') :
    level first ≤ level second := by
  have hnearest := nearest_mono hle
  rw [hfirst.level_eq, hsecond.level_eq]
  split_ifs with hfits hfits' hside' hside hfits' hside' hfits' hside'
  · exact_mod_cast hnearest
  · have hlow := (abs_le.mp hfits).1.trans hnearest
    refine absurd (abs_le.mpr ⟨hlow, (nearest_nonpos hside'.le).trans ?_⟩) hfits'
    norm_num [largest]
  · exact WithBot.coe_le_coe.mpr le_top
  · exact bot_le
  · exact bot_le
  · exact bot_le
  · have hhigh := hnearest.trans (abs_le.mp hfits').2
    refine absurd (abs_le.mpr ⟨le_trans ?_ (nearest_nonneg (not_lt.mp hside)), hhigh⟩) hfits
    norm_num [largest]
  · exact absurd (hle.trans_lt hside') hside
  · exact le_rfl

/-- Rounding does not lead away from the numbers. -/
theorem IsRounded.isNumber {result : Float32} {exact : ℚ} (h : IsRounded result exact) :
    result.isNaN = false := by
  rw [IsRounded] at h
  split_ifs at h
  · exact isNaN_of_isFinite h.1
  all_goals
    rw [Single.isNaN_eq, h]
    rfl

/-- Rounding keeps the order of exact results. -/
theorem IsRounded.le {first second : Float32} {exact exact' : ℚ} (hfirst : IsRounded first exact)
    (hsecond : IsRounded second exact') (hle : exact ≤ exact') : first ≤ second :=
  le_iff_level.mpr ⟨hfirst.isNumber, hsecond.isNumber, hfirst.level_mono hsecond hle⟩

/-- A result between two numbers that need no rounding is finite and stays between them. -/
theorem IsRounded.of_between_grid {result : Float32} {exact low high : ℚ}
    (h : IsRounded result exact) (hgrid : Grid low) (hgrid' : Grid high) (hsmall : -largest ≤ low)
    (hlarge : high ≤ largest) (hlow : low ≤ exact) (hhigh : exact ≤ high) :
    result.isFinite = true ∧ low ≤ value result ∧ value result ≤ high := by
  have hmono := nearest_mono hlow
  have hmono' := nearest_mono hhigh
  rw [nearest_of_grid hgrid] at hmono
  rw [nearest_of_grid hgrid'] at hmono'
  rw [IsRounded, if_pos (abs_le.mpr ⟨hsmall.trans hmono, hmono'.trans hlarge⟩)] at h
  rw [h.2]
  exact ⟨h.1, hmono, hmono'⟩

/-- A result between two singles is finite and stays between them. -/
theorem IsRounded.of_between {result low high : Float32} {exact : ℚ} (h : IsRounded result exact)
    (hlow : value low ≤ exact) (hhigh : exact ≤ value high) :
    result.isFinite = true ∧ value low ≤ value result ∧ value result ≤ value high :=
  h.of_between_grid (grid_value low) (grid_value high) (abs_le.mp (abs_value_le low)).1
    (abs_le.mp (abs_value_le high)).2 hlow hhigh

/-! ### Sums -/

theorem add_of_isNaN {first second : UnpackedFloat}
    (h : first.isNaN = true ∨ second.isNaN = true) :
    UnpackedFloat.add Format.binary32 first second = .notANumber := by
  rcases h with h | h
  · obtain rfl := isNaN_iff.mp h
    rfl
  · obtain rfl := isNaN_iff.mp h
    cases first <;> rfl

/-- A sum with an infinity is that infinity, unless the other term is the opposite one. -/
theorem add_infinity_left {sign : Sign} {second : UnpackedFloat} (hsecond : second.isNaN = false)
    (h : second ≠ .infinity (-sign)) :
    UnpackedFloat.add Format.binary32 (.infinity sign) second = .infinity sign := by
  cases second with
  | zero sign' => rfl
  | finite sign' mantissa exponent hpos => rfl
  | notANumber => cases hsecond
  | infinity sign' =>
    have hsigns : sign' = sign := by
      cases sign with
      | positive => cases sign' with
        | positive => rfl
        | negative => exact absurd rfl h
      | negative => cases sign' with
        | positive => exact absurd rfl h
        | negative => rfl
    rw [hsigns]
    cases sign <;> rfl

theorem add_infinity_right {sign : Sign} {first : UnpackedFloat} (h : first.isFinite = true) :
    UnpackedFloat.add Format.binary32 first (.infinity sign) = .infinity sign := by
  cases first with
  | zero sign' => rfl
  | finite sign' mantissa exponent hpos => rfl
  | infinity sign' => cases h
  | notANumber => cases h

theorem parts_pack_notANumber : parts (.ofModel (.pack .notANumber)) = .notANumber :=
  parts_ofModel_pack trivial trivial

theorem parts_pack_infinity (sign : Sign) :
    parts (.ofModel (.pack (.infinity sign))) = .infinity sign := parts_ofModel_pack trivial trivial

theorem parts_add (first second : Float32) : parts (first + second) =
    parts (.ofModel (.pack (UnpackedFloat.add Format.binary32 (parts first) (parts second)))) := rfl

/-- A finite number and an infinity have that infinity as their sum. -/
theorem parts_add_infinity {first second : Float32} {sign : Sign} (hfirst : first.isFinite = true)
    (hsecond : parts second = .infinity sign) : parts (first + second) = .infinity sign := by
  rw [isFinite_eq] at hfirst
  rw [parts_add, hsecond, add_infinity_right hfirst, parts_pack_infinity]

/-- A sum is a number only if both of its terms are. -/
theorem isNaN_of_add {first second : Float32} (h : (first + second).isNaN = false) :
    first.isNaN = false ∧ second.isNaN = false := by
  by_contra hnot
  have hsum : UnpackedFloat.add Format.binary32 (parts first) (parts second) = .notANumber :=
    add_of_isNaN ((not_and_or.mp hnot).imp Bool.eq_true_of_not_eq_false
      Bool.eq_true_of_not_eq_false)
  rw [isNaN_eq, parts_add, hsum, parts_pack_notANumber] at h
  cases h

/-- A sum is finite only if both of its terms are. -/
theorem isFinite_of_add {first second : Float32} (h : (first + second).isFinite = true) :
    first.isFinite = true ∧ second.isFinite = true := by
  obtain ⟨hfirst, hsecond⟩ := isNaN_of_add (isNaN_of_isFinite h)
  by_contra hnot
  have hsum : (first + second).isFinite = false := by
    rw [isFinite_eq, parts_add]
    cases hfinite : first.isFinite with
    | true =>
      obtain ⟨sign, hparts⟩ := exists_parts_eq_infinity hsecond
        (Bool.eq_false_iff.mpr fun hfinite' ↦ hnot ⟨hfinite, hfinite'⟩)
      rw [← parts_add, parts_add_infinity hfinite hparts]
      rfl
    | false =>
      obtain ⟨sign, hparts⟩ := exists_parts_eq_infinity hfirst hfinite
      rw [isNaN_eq] at hsecond
      rw [hparts]
      by_cases hopposite : parts second = .infinity (-sign)
      · rw [hopposite]
        cases sign <;> rfl
      · rw [add_infinity_left hsecond hopposite, parts_pack_infinity]
        rfl
  rw [h] at hsum
  cases hsum

theorem parts_neg (number : Float32) : parts (-number) = (parts number).neg := by
  have hneg : parts (-number) = parts (.ofModel (.pack (parts number).neg)) := rfl
  obtain ⟨hcanonical, hfits⟩ := canonical_parts number
  rw [hneg]
  generalize parts number = unpacked at hcanonical hfits
  refine parts_ofModel_pack ?_ ?_
  · cases unpacked <;> exact hcanonical
  · cases unpacked <;> exact hfits

/-- The opposite of a rounded result is rounded. -/
theorem IsRounded.neg {result : Float32} {exact : ℚ} (h : IsRounded result exact) :
    IsRounded (-result) (-exact) := by
  rw [IsRounded] at h ⊢
  rw [nearest_neg, abs_neg]
  by_cases hle : |nearest exact| ≤ largest
  · rw [if_pos hle] at h ⊢
    obtain ⟨hfinite, hvalue⟩ := h
    rw [isFinite_eq] at hfinite
    rw [isFinite_eq, value, parts_neg, exactValue_neg, ← hvalue]
    refine ⟨?_, rfl⟩
    generalize parts result = unpacked at hfinite
    cases unpacked <;> exact hfinite
  · rw [if_neg hle] at h ⊢
    have hne : exact ≠ 0 := by
      rintro rfl
      rw [nearest_zero, abs_zero] at hle
      exact hle (by norm_num [largest])
    rw [parts_neg, h]
    rcases lt_or_gt_of_ne hne with hneg | hpos
    · rw [if_pos hneg, if_neg (neg_pos.mpr hneg).not_gt]
      rfl
    · rw [if_neg hpos.not_gt, if_pos (neg_neg_of_pos hpos)]
      rfl

/-- A difference is finite only if both of its terms are. -/
theorem isFinite_of_sub {first second : Float32} (h : (first - second).isFinite = true) :
    first.isFinite = true ∧ second.isFinite = true := by
  have hsub : first - second = first + -second := by
    rw [← parts_inj, parts_add, parts_neg, ← sub_eq_add]
    rfl
  rw [hsub] at h
  obtain ⟨hfirst, hsecond⟩ := isFinite_of_add h
  rw [isFinite_eq, parts_neg] at hsecond
  rw [isFinite_eq second]
  refine ⟨hfirst, ?_⟩
  generalize parts second = unpacked at hsecond
  cases unpacked <;> exact hsecond

/-- Adding what is not below zero does not lead downwards. -/
theorem level_le_level_add {first second : Float32} (h : (first + second).isNaN = false)
    (hsecond : 0 ≤ level second) : level first ≤ level (first + second) := by
  obtain ⟨hnumber, hnumber'⟩ := isNaN_of_add h
  cases hfinite : first.isFinite with
  | true =>
    cases hfinite' : second.isFinite with
    | true =>
      rw [level_of_isFinite hfinite'] at hsecond
      exact (isRounded_value hfinite).level_mono (isRounded_add hfinite hfinite')
        (le_add_of_nonneg_right (mod_cast hsecond))
    | false =>
      obtain ⟨sign', hparts'⟩ := exists_parts_eq_infinity hnumber' hfinite'
      have hsum := parts_add_infinity hfinite hparts'
      cases sign' with
      | positive =>
        rw [level, level, hsum]
        exact le_top
      | negative =>
        rw [level, hparts'] at hsecond
        exact absurd hsecond (by decide)
  | false =>
    obtain ⟨sign, hparts⟩ := exists_parts_eq_infinity hnumber hfinite
    cases sign with
    | negative =>
      rw [level, hparts]
      exact bot_le
    | positive =>
      have hopposite : parts second ≠ .infinity (-.positive) := fun hparts' ↦ by
        rw [level, hparts'] at hsecond
        exact absurd hsecond (by decide)
      have hsum : parts (first + second) = .infinity .positive := by
        rw [isNaN_eq] at hnumber'
        rw [parts_add, hparts, add_infinity_left hnumber' hopposite, parts_pack_infinity]
      rw [level, level, hsum]
      exact le_top

/-! ### Products -/

theorem parts_mul (first second : Float32) : parts (first * second) =
    parts (.ofModel (.pack (UnpackedFloat.mul Format.binary32 (parts first) (parts second)))) := rfl

/-- Some of the positive infinity is all of it. -/
theorem parts_infinity_mul {first second : Float32} (hfirst : parts first = .infinity .positive)
    (hpos : 0 < value second) : parts (first * second) = .infinity .positive := by
  obtain ⟨sign, mantissa, exponent, hmantissa, hparts, -, -, hvalue⟩ :=
    exists_parts_eq_finite hpos.ne'
  cases sign with
  | positive =>
    rw [parts_mul, hfirst, hparts, UnpackedFloat.mul, parts_pack_infinity]
    rfl
  | negative =>
    rw [value, hparts] at hpos
    exact absurd hpos (exactValue_lt_zero exponent hmantissa).not_gt

/-! ### Square roots -/

/-- What is stored with a positive sign is not below zero. -/
theorem rank_unpack_nonneg {bits : BitVec Format.binary32.numBits}
    (h : unpackSign bits = Sign.positive.toBitVec) : 0 ≤ rank (unpack Format.binary32 bits) := by
  have hsign : Sign.ofBitVec (unpackSign bits) = .positive := by rw [h]; rfl
  simp only [unpack, hsign]
  split_ifs
  · exact le_top
  · exact le_rfl
  · exact le_rfl
  · rw [rank_of_isFinite rfl]
    exact_mod_cast (exactValue_pos _ _).le
  · rw [rank_of_isFinite rfl]
    exact_mod_cast (exactValue_pos _ _).le

theorem unpackSign_pack {mantissa : Nat} (exponent : ℤ) (hpos : 0 < mantissa) :
    unpackSign (pack Format.binary32 (.finite .positive mantissa exponent hpos)) =
      Sign.positive.toBitVec := by
  simp only [pack]
  split_ifs <;> exact unpackSign_packComponents _ _ _

/-- Rounding keeps a positive sign. -/
theorem rank_pack_roundWithAccuracy_nonneg (mantissa : Nat) (exponent : ℤ) (accuracy : Accuracy) :
    0 ≤ rank (parts (.ofModel (.pack
      (roundWithAccuracy Format.binary32 .positive mantissa exponent accuracy)))) := by
  rw [roundWithAccuracy]
  dsimp only
  split_ifs with hzero
  · exact le_rfl
  · exact rank_unpack_nonneg (unpackSign_pack _ (Nat.pos_of_ne_zero hzero))

/-- A square root is not below zero. -/
theorem level_sqrt_nonneg (number : Float32) : 0 ≤ level number.sqrt := by
  change 0 ≤ rank (parts (.ofModel (.pack (UnpackedFloat.sqrt Format.binary32 (parts number)))))
  cases parts number with
  | notANumber => exact parts_pack_notANumber ▸ le_rfl
  | infinity sign =>
    cases sign with
    | positive => exact parts_pack_infinity .positive ▸ le_top
    | negative => exact parts_pack_notANumber ▸ le_rfl
  | zero sign => cases sign <;> exact le_rfl
  | finite sign mantissa exponent hpos =>
    cases sign with
    | positive => exact rank_pack_roundWithAccuracy_nonneg _ _ _
    | negative => exact parts_pack_notANumber ▸ le_rfl

end Lindenmayer.Single
