import Lindenmayer.Json.Numeral
import Lindenmayer.Proofs.Single.Decimal
import Lindenmayer.Proofs.Single.Midway

/-!
# The singles that numerals name

A single can be written as many numerals. `Numeral.Names` says which of them name it: those whose
number has it for its nearest single, with the sign of zero as written. The exact numeral of a
finite single names it, and the others have none (`Numeral.names_of_ofSingle?`,
`Numeral.ofSingle?_eq_none_iff`).

A numeral is read as the single that it names, unless it `IsMisread`
(`Numeral.single?_eq_some_iff`). That happens in two ways. Of the digits after the deciding ones it
is only known whether there are some, so that a numeral that has some, and lies midway between two
singles, is read as the one farther from zero, even where the nearest, which is the even one, is the
other. And a negative word below the signed ones is rounded to a double first, which can bring it
into the middle between two singles or across it. Neither concerns a numeral of up to a hundred and
thirteen digits that has a point or an exponent (`Numeral.not_isMisread_of_digits`).
-/

set_option autoImplicit false

namespace Lindenmayer.Numeral

open Single
open Float.Model (UnpackedFloat)
open Float.Model.UnpackedFloat

/-! ### The number of a numeral -/

/-- The sign of a numeral. -/
def sign (numeral : Numeral) : Sign := if numeral.negative then .negative else .positive

/-- The number of a numeral without its sign. -/
def magnitude (numeral : Numeral) : ℚ := numeral.digits * 10 ^ numeral.exponent

/-- The number of a numeral. -/
def number (numeral : Numeral) : ℚ := numeral.sign.apply 1 * numeral.magnitude

/-- The number of a negative word after it is rounded to a double, which has no place for some of
its binary digits. -/
def doubled (numeral : Numeral) : ℚ :=
  nearestInt (numeral.number / 2 ^ surplusPlaces) * 2 ^ surplusPlaces

/-- The single is the nearest one to the number of the numeral, and a zero has the sign that is
written. -/
structure Names (numeral : Numeral) (single : Float32) : Prop where
  isFinite : single.isFinite = true
  nearest_eq : nearest numeral.number = value single
  sign_eq : ∀ sign, parts single = .zero sign → sign = numeral.sign

/-- The numeral is not read as the single nearest to its number. Either it has more digits than the
deciding ones and lies midway between two singles, of which the one nearer to zero is even; or it is
a negative word below the signed ones, and has another nearest single when it is rounded to a
double. -/
def IsMisread (numeral : Numeral) : Prop :=
  10 ^ decidingDigits ≤ numeral.digits ∧ Halfway numeral.magnitude ∧
      nearest numeral.magnitude < numeral.magnitude ∨
    numeral.isBelowSigned = true ∧ nearest numeral.doubled ≠ nearest numeral.number

theorem nearest_apply (sign : Sign) (number : ℚ) :
    nearest (sign.apply 1 * number) = sign.apply 1 * nearest number := by
  cases sign with
  | positive => rw [apply_positive, Int.cast_one, one_mul, one_mul]
  | negative =>
    rw [apply_negative, Int.cast_neg, Int.cast_one, neg_one_mul, neg_one_mul, nearest_neg]

theorem abs_apply_one (sign : Sign) (number : ℚ) : |sign.apply 1 * number| = |number| := by
  cases sign with
  | positive => rw [apply_positive, Int.cast_one, one_mul]
  | negative => rw [apply_negative, Int.cast_neg, Int.cast_one, neg_one_mul, abs_neg]

/-- The nearest single to a named number is not beyond the largest. -/
theorem Names.nearest_magnitude_le {numeral : Numeral} {single : Float32}
    (h : numeral.Names single) : nearest numeral.magnitude ≤ largest := by
  have hle := abs_value_le single
  rw [← h.nearest_eq, number, nearest_apply, abs_apply_one] at hle
  exact (le_abs_self _).trans hle

/-- A single is known by its value and, if it is zero, by its sign. -/
theorem eq_of_value_eq_of_sign {first second : Float32} (hfirst : first.isFinite = true)
    (hsecond : second.isFinite = true) (h : value first = value second)
    (hsign : ∀ sign sign', parts first = .zero sign → parts second = .zero sign' → sign = sign') :
    first = second := by
  by_cases hzero : value first = 0
  · obtain ⟨sign, hparts⟩ := exists_parts_eq_zero hfirst hzero
    obtain ⟨sign', hparts'⟩ := exists_parts_eq_zero hsecond (h ▸ hzero)
    rw [← parts_inj, hparts, hparts', hsign sign sign' hparts hparts']
  · exact eq_of_value_eq hfirst hsecond h hzero

/-- The single nearest to a number is named, unless it is a zero, whose sign could be the other one.
-/
theorem names_of_nearest {numeral : Numeral} {single : Float32} (hfinite : single.isFinite = true)
    (hnearest : nearest numeral.number = value single) (hne : value single ≠ 0) :
    numeral.Names single := by
  refine ⟨hfinite, hnearest, fun sign hparts ↦ absurd ?_ hne⟩
  rw [value, hparts]
  rfl

/-- A numeral names one single only. -/
theorem Names.unique {numeral : Numeral} {first second : Float32} (h : numeral.Names first)
    (h' : numeral.Names second) : first = second :=
  eq_of_value_eq_of_sign h.isFinite h'.isFinite (h.nearest_eq.symm.trans h'.nearest_eq)
    fun sign sign' hparts hparts' ↦ (h.sign_eq sign hparts).trans (h'.sign_eq sign' hparts').symm

/-! ### Numerals of many digits -/

theorem surplus_eq_zero_iff {numeral : Numeral} :
    numeral.surplus = 0 ↔ numeral.digits < 10 ^ decidingDigits := by
  rw [surplus, Nat.sub_eq_zero_iff_le]
  exact Nat.length_toDigits_le_iff (by decide) (by decide)

/-- The deciding digits have no zero in front. -/
theorem le_deciding {numeral : Numeral} (h : numeral.surplus ≠ 0) :
    10 ^ 112 ≤ numeral.digits / 10 ^ numeral.surplus := by
  have hlength : ¬ (Nat.toDigits 10 numeral.digits).length ≤ numeral.surplus + 112 := by
    rw [surplus, decidingDigits] at h ⊢
    omega
  rw [Nat.length_toDigits_le_iff (by decide) (by omega), not_lt, pow_add, mul_comm] at hlength
  exact (Nat.le_div_iff_mul_le (by positivity)).mpr hlength

/-- A number of more digits than the deciding ones that has a nearest single is a fraction in the
place of the last deciding digit. -/
theorem exponent_add_surplus_lt {numeral : Numeral} (h : numeral.surplus ≠ 0)
    (hle : nearest numeral.magnitude ≤ largest) : numeral.exponent + numeral.surplus < 0 := by
  by_contra hexponent
  have hdigits : (10 : ℚ) ^ 112 * 10 ^ numeral.surplus ≤ numeral.digits := by
    exact_mod_cast (Nat.le_div_iff_mul_le (by positivity)).mp (le_deciding h)
  have hlarge : (2 : ℚ) ^ (128 : ℤ) ≤ numeral.magnitude :=
    calc (2 : ℚ) ^ (128 : ℤ) ≤ 10 ^ 112 * 1 := by norm_num
      _ ≤ 10 ^ 112 * 10 ^ (numeral.surplus + numeral.exponent) := by
        gcongr
        exact one_le_zpow₀ (by norm_num) (by omega)
      _ = 10 ^ 112 * 10 ^ numeral.surplus * 10 ^ numeral.exponent := by
        rw [zpow_add₀ (by norm_num), zpow_natCast, mul_assoc]
      _ ≤ numeral.magnitude := by
        rw [magnitude]
        gcongr
  have hnearest := (nearest_mono hlarge).trans hle
  rw [nearest_zpow (by norm_num)] at hnearest
  exact absurd hnearest (by norm_num [largest])

/-- A numeral of many digits, and the same numeral abridged, lie between two neighbouring numbers of
as many digits as decide. -/
theorem exists_deciding {numeral : Numeral} (h : numeral.surplus ≠ 0)
    (hle : nearest numeral.magnitude ≤ largest) :
    ∃ (deciding : ℕ) (exponent : ℤ), 10 ^ 112 ≤ deciding ∧ exponent < 0 ∧
      deciding * 10 ^ exponent ≤ numeral.magnitude ∧
      numeral.magnitude < (deciding + 1 : ℕ) * 10 ^ exponent ∧
      deciding * 10 ^ exponent < numeral.abridge.magnitude ∧
      numeral.abridge.magnitude < (deciding + 1 : ℕ) * 10 ^ exponent := by
  refine ⟨numeral.digits / 10 ^ numeral.surplus, numeral.exponent + numeral.surplus,
    le_deciding h, exponent_add_surplus_lt h hle, ?_⟩
  set unit : ℚ := 10 ^ (numeral.exponent + numeral.surplus) with hunit
  have hpos : 0 < unit := by positivity
  set deciding := numeral.digits / 10 ^ numeral.surplus with hdeciding
  have hmagnitude : numeral.magnitude = numeral.digits / 10 ^ numeral.surplus * unit := by
    rw [magnitude, hunit, zpow_add₀ (by norm_num), zpow_natCast]
    field_simp
  have habridged : numeral.abridge.magnitude = (deciding + 1 / 10) * unit := by
    have hshape : numeral.abridge.magnitude = ((10 * deciding + 1 : ℕ) : ℚ) *
        10 ^ (numeral.exponent + (numeral.surplus - 1 : ℕ)) := by
      rw [abridge, if_neg h]
      rfl
    rw [hshape, hunit, show numeral.exponent + (numeral.surplus - 1 : ℕ) =
      numeral.exponent + numeral.surplus - 1 by omega, zpow_sub_one₀ (by norm_num)]
    push_cast
    ring
  have hlow : (deciding : ℚ) ≤ numeral.digits / 10 ^ numeral.surplus := by
    rw [le_div_iff₀ (by positivity)]
    exact_mod_cast Nat.div_mul_le_self _ _
  have hhigh : (numeral.digits : ℚ) / 10 ^ numeral.surplus < (deciding + 1 : ℕ) := by
    rw [div_lt_iff₀ (by positivity)]
    exact_mod_cast Nat.lt_mul_of_div_lt (Nat.lt_succ_self _) (by positivity)
  rw [hmagnitude, habridged]
  refine ⟨mul_le_mul_of_nonneg_right hlow hpos.le, mul_lt_mul_of_pos_right hhigh hpos,
    mul_lt_mul_of_pos_right (by linarith) hpos, mul_lt_mul_of_pos_right ?_ hpos⟩
  push_cast
  linarith

/-- Abridging a numeral leaves its nearest single the same, unless the numeral has more digits than
decide and goes down from a middle: then it goes up. -/
theorem nearest_abridge_iff {numeral : Numeral} (hle : nearest numeral.magnitude ≤ largest) :
    nearest numeral.abridge.magnitude = nearest numeral.magnitude ↔
      ¬ (10 ^ decidingDigits ≤ numeral.digits ∧ Halfway numeral.magnitude ∧
        nearest numeral.magnitude < numeral.magnitude) := by
  by_cases hsurplus : numeral.surplus = 0
  · rw [abridge, if_pos hsurplus]
    exact iff_of_true rfl fun hdown ↦ (surplus_eq_zero_iff.mp hsurplus).not_ge hdown.1
  obtain ⟨deciding, exponent, hdeciding, hexponent, hlow, hhigh, hlow', hhigh'⟩ :=
    exists_deciding hsurplus hle
  have hmany : 10 ^ decidingDigits ≤ numeral.digits :=
    not_lt.mp (surplus_eq_zero_iff.not.mp hsurplus)
  constructor
  · rintro heq ⟨-, hmiddle, hdown⟩
    have hup := lt_nearest_of_digits hdeciding hexponent hlow hhigh hlow' hhigh' hmiddle
    rw [heq] at hup
    exact hdown.not_gt hup
  · intro h
    exact nearest_eq_of_digits hdeciding hexponent hlow hhigh hlow' hhigh' fun hmiddle ↦
      not_lt.mp fun hdown ↦ h ⟨hmany, hmiddle, hdown⟩

theorem sign_abridge (numeral : Numeral) : numeral.abridge.sign = numeral.sign := by
  rw [abridge]
  split_ifs <;> rfl

/-! ### Reading -/

/-- The magnitude is rounded, and the sign is put to it. -/
theorem isRounded_toSingle (numeral : Numeral) : IsRounded numeral.toSingle numeral.number := by
  have hround := isRounded_ofScientific numeral.digits numeral.exponent
  rw [toSingle, number, sign]
  cases numeral.negative with
  | true =>
    rw [if_pos rfl, if_pos rfl, apply_negative, Int.cast_neg, Int.cast_one, neg_one_mul]
    exact hround.neg
  | false =>
    rw [if_neg Bool.false_ne_true, if_neg Bool.false_ne_true, apply_positive, Int.cast_one,
      one_mul]
    exact hround

/-- A zero keeps the sign of its numeral. -/
theorem sign_of_toSingle {numeral : Numeral} {sign : Sign}
    (h : parts numeral.toSingle = .zero sign) : sign = numeral.sign := by
  have hpositive := parts_ofScientific_ne numeral.digits numeral.exponent
  rw [toSingle] at h
  rw [Numeral.sign]
  generalize Float32.ofScientific numeral.digits _ _ = single at h hpositive
  cases hnegative : numeral.negative with
  | true =>
    rw [hnegative, if_pos rfl, parts_neg] at h
    generalize parts single = unpacked at h hpositive
    cases unpacked with
    | zero sign' =>
      cases sign' with
      | positive => exact (UnpackedFloat.zero.inj h).symm
      | negative => exact absurd rfl hpositive
    | _ => cases h
  | false =>
    rw [hnegative, if_neg Bool.false_ne_true] at h
    cases sign with
    | positive => rfl
    | negative => exact absurd h hpositive

/-- A rounded number is the named single exactly if that is nearest to it. -/
theorem Names.ite_eq_some_iff {numeral : Numeral} {single result : Float32} {exact : ℚ}
    (h : numeral.Names single) (hround : IsRounded result exact)
    (hsign : ∀ sign, value single = 0 → parts result = .zero sign → sign = numeral.sign) :
    (if result.isFinite then some result else none) = some single ↔
      nearest exact = nearest numeral.number := by
  rw [h.nearest_eq]
  constructor
  · intro heq
    split_ifs at heq with hfinite
    obtain rfl := Option.some.inj heq
    exact (hround.value_eq hfinite).symm
  · intro heq
    rw [IsRounded, heq, if_pos (abs_value_le single)] at hround
    obtain ⟨hfinite, hvalue⟩ := hround
    rw [if_pos hfinite, eq_of_value_eq_of_sign hfinite h.isFinite hvalue]
    intro sign sign' hparts hparts'
    have hzero : value single = 0 := by
      rw [value, hparts']
      rfl
    exact (hsign sign hzero hparts).trans (h.sign_eq sign' hparts').symm

/-- Dropping the surplus digits of a word rounds it to the nearest multiple of their unit. -/
theorem nearestInt_div_surplusPlaces (word : Nat) :
    nearestInt (word / 2 ^ surplusPlaces) = dropSurplusPlaces word := by
  have hunit : (2 : ℚ) ^ surplusPlaces = (2048 : ℕ) := by norm_num [surplusPlaces]
  have hdrop : dropSurplusPlaces word = (word + 1023 + word / 2048 % 2) / 2048 := rfl
  have hfloor : ⌊(word : ℚ) / (2048 : ℕ)⌋ = (word / 2048 : ℕ) := by
    rw [Rat.floor_natCast_div_natCast]
    rfl
  have hrest : (word : ℚ) / (2048 : ℕ) - ((word / 2048 : ℕ) : ℤ) =
      (word % 2048 : ℕ) / (1024 : ℕ) * (1 / 2) := by
    have hword : ((2048 * (word / 2048) + word % 2048 : ℕ) : ℚ) = word := by
      rw [Nat.div_add_mod]
    rw [← hword, Int.cast_natCast, Nat.cast_add, Nat.cast_mul, Nat.cast_ofNat, Nat.cast_ofNat]
    ring
  have hmiddle : (0 : ℚ) < (1024 : ℕ) := by norm_num
  rw [hunit, nearestInt, hfloor, hrest, hdrop]
  split_ifs with hbelow habove
  · have hlt : word % 2048 < 1024 := by
      rw [mul_lt_iff_lt_one_left (by norm_num), div_lt_one hmiddle] at hbelow
      exact_mod_cast hbelow
    omega
  · have hlt : 1024 < word % 2048 := by
      rw [lt_mul_iff_one_lt_left (by norm_num), one_lt_div hmiddle] at habove
      exact_mod_cast habove
    omega
  · have heq : word % 2048 = 1024 := by
      rw [lt_mul_iff_one_lt_left (by norm_num), one_lt_div hmiddle, not_lt] at habove
      rw [mul_lt_iff_lt_one_left (by norm_num), div_lt_one hmiddle, not_lt] at hbelow
      exact_mod_cast le_antisymm habove hbelow
    omega

theorem isBelowSigned_iff {numeral : Numeral} : numeral.isBelowSigned = true ↔
    numeral.plain = true ∧ numeral.negative = true ∧ 2 ^ 63 < numeral.digits ∧
      numeral.digits < 2 ^ 64 := by
  simp only [isBelowSigned, Bool.and_eq_true, decide_eq_true_eq, and_assoc]
  rfl

theorem number_of_isBelowSigned {numeral : Numeral} (h : numeral.isBelowSigned = true) :
    numeral.number = -numeral.digits := by
  obtain ⟨hplain, hnegative, -, -⟩ := isBelowSigned_iff.mp h
  rw [number, magnitude, sign, numeral.exponent_eq_zero hplain, hnegative, if_pos rfl,
    apply_negative, Int.cast_neg, Int.cast_one, neg_one_mul, zpow_zero, mul_one]

/-- A negative word is rounded to a double and then to a single. -/
theorem isRounded_doubled {numeral : Numeral} (h : numeral.isBelowSigned = true) :
    IsRounded (ofDyadic .negative (dropSurplusPlaces numeral.digits) surplusPlaces)
      numeral.doubled := by
  have hround := isRounded_ofDyadic .negative (dropSurplusPlaces numeral.digits) surplusPlaces
  rwa [apply_negative, zpow_natCast, ← nearestInt_div_surplusPlaces, ← nearestInt_neg, ← neg_div,
    ← number_of_isBelowSigned h] at hround

/-- A numeral is read as the single that it names exactly if it is not misread. -/
theorem single?_eq_some_iff {numeral : Numeral} {single : Float32} (h : numeral.Names single) :
    numeral.single? = some single ↔ ¬ numeral.IsMisread := by
  rw [single?]
  by_cases hbelow : numeral.isBelowSigned = true
  · obtain ⟨-, -, hlarge, hword⟩ := isBelowSigned_iff.mp hbelow
    have hfew : ¬ 10 ^ decidingDigits ≤ numeral.digits :=
      (hword.trans (by norm_num [decidingDigits])).not_ge
    have hiff : numeral.IsMisread ↔ nearest numeral.doubled ≠ nearest numeral.number := by
      rw [IsMisread, or_iff_right fun hdown ↦ hfew hdown.1, and_iff_right hbelow]
    rw [hiff, not_not, if_pos hbelow]
    refine h.ite_eq_some_iff (isRounded_doubled hbelow) fun sign hzero hparts ↦ ?_
    rw [← h.nearest_eq, nearest_eq_zero_iff, number_of_isBelowSigned hbelow, abs_neg,
      Nat.abs_cast] at hzero
    have hone : (1 : ℚ) ≤ numeral.digits := mod_cast Nat.one_le_of_lt hlarge
    exact absurd (hone.trans hzero) (by norm_num)
  · have hiff : numeral.IsMisread ↔ 10 ^ decidingDigits ≤ numeral.digits ∧
        Halfway numeral.magnitude ∧ nearest numeral.magnitude < numeral.magnitude := by
      rw [IsMisread, or_iff_left fun hword ↦ hbelow hword.1]
    rw [hiff, ← nearest_abridge_iff h.nearest_magnitude_le, if_neg hbelow,
      h.ite_eq_some_iff (isRounded_toSingle _) fun sign _ hparts ↦
        (sign_of_toSingle hparts).trans (sign_abridge numeral)]
    rw [number, number, nearest_apply, nearest_apply, sign_abridge]
    cases numeral.sign <;> simp [apply_positive, apply_negative]

/-! ### Numerals of singles -/

/-- A numeral with a point or an exponent and not too many digits is not misread. -/
theorem not_isMisread_of_digits {numeral : Numeral} (hplain : numeral.plain = false)
    (hdigits : numeral.digits < 10 ^ 113) : ¬ numeral.IsMisread := by
  rintro (⟨hmany, -, -⟩ | ⟨hbelow, -⟩)
  · exact hdigits.not_ge hmany
  · rw [(isBelowSigned_iff.mp hbelow).1] at hplain
    cases hplain

theorem sign_of_beq (sign : Sign) (digits : Nat) (exponent : Int) :
    ({ negative := sign == .negative, digits, exponent, plain := false } : Numeral).sign =
      sign := by
  cases sign <;> rfl

/-- A negative power of two is a power of five over a power of ten. -/
theorem mul_five_pow_mul_zpow (mantissa : Nat) {exponent : ℤ} (h : exponent < 0) :
    ((mantissa * 5 ^ exponent.natAbs : ℕ) : ℚ) * 10 ^ exponent = mantissa * 2 ^ exponent := by
  obtain ⟨shift, rfl⟩ : ∃ shift : Nat, exponent = -(shift : ℤ) := ⟨exponent.natAbs, by omega⟩
  rw [Int.natAbs_neg, Int.natAbs_natCast, zpow_neg, zpow_neg, zpow_natCast, zpow_natCast,
    show (10 : ℚ) = 5 * 2 by norm_num, mul_pow]
  push_cast
  field_simp

theorem shiftLeft_natAbs (mantissa : Nat) {exponent : ℤ} (h : 0 ≤ exponent) :
    ((mantissa <<< exponent.natAbs : ℕ) : ℚ) * 10 ^ (0 : ℤ) = mantissa * 2 ^ exponent := by
  obtain ⟨shift, rfl⟩ := Int.eq_ofNat_of_zero_le h
  rw [Int.natAbs_natCast, Nat.shiftLeft_eq, zpow_natCast, zpow_zero, mul_one]
  push_cast
  rfl

/-- A numeral with the exact magnitude of a single and its sign names it. -/
theorem names_of_magnitude {single : Float32} {sign : Sign} {mantissa : Nat} {exponent : ℤ}
    {hpos : 0 < mantissa} (hparts : parts single = .finite sign mantissa exponent hpos)
    {numeral : Numeral} (hsign : numeral.sign = sign)
    (hmagnitude : numeral.magnitude = mantissa * 2 ^ exponent) :
    numeral.Names single := by
  have hvalue : numeral.number = value single := by
    rw [value, hparts, exactValue_eq, number, hsign, hmagnitude]
  refine ⟨?_, ?_, fun sign' hzero ↦ ?_⟩
  · rw [isFinite_eq, hparts]
    rfl
  · rw [hvalue, nearest_of_grid (grid_value single)]
  · rw [hparts] at hzero
    cases hzero

/-- The exact numeral of a single names it, and is not misread. -/
theorem names_of_ofSingle? {single : Float32} {numeral : Numeral}
    (h : ofSingle? single = some numeral) : numeral.Names single ∧ ¬ numeral.IsMisread := by
  obtain ⟨hcanonical, hfits⟩ := canonical_parts single
  rw [ofSingle?] at h
  cases hparts : parts single with
  | infinity sign => rw [hparts] at h; cases h
  | notANumber => rw [hparts] at h; cases h
  | zero sign =>
    rw [hparts] at h
    obtain rfl := Option.some.inj h
    refine ⟨⟨by rw [isFinite_eq, hparts]; rfl, ?_, fun sign' hsign ↦ ?_⟩,
      not_isMisread_of_digits rfl (by positivity)⟩
    · rw [number, magnitude, Nat.cast_zero, zero_mul, mul_zero, nearest_zero, value, hparts]
      rfl
    · rw [sign_of_beq]
      exact (UnpackedFloat.zero.inj (hparts.symm.trans hsign)).symm
  | finite sign mantissa exponent hpos =>
    rw [hparts] at h hcanonical hfits
    obtain ⟨hmantissa, hlow, -⟩ := hcanonical
    have hhigh : exponent ≤ 104 := hfits
    dsimp only at h
    split_ifs at h with hneg
    · obtain rfl := Option.some.inj h
      refine ⟨names_of_magnitude hparts (sign_of_beq sign _ _)
        (mul_five_pow_mul_zpow mantissa hneg), not_isMisread_of_digits rfl ?_⟩
      calc mantissa * 5 ^ exponent.natAbs ≤ 2 ^ 24 * 5 ^ 149 :=
            Nat.mul_le_mul hmantissa.le (Nat.pow_le_pow_right (by decide) (by omega))
        _ < 10 ^ 113 := by norm_num
    · obtain rfl := Option.some.inj h
      refine ⟨names_of_magnitude hparts (sign_of_beq sign _ _)
        (shiftLeft_natAbs mantissa (not_lt.mp hneg)), not_isMisread_of_digits rfl ?_⟩
      calc mantissa <<< exponent.natAbs = mantissa * 2 ^ exponent.natAbs := Nat.shiftLeft_eq _ _
        _ ≤ 2 ^ 24 * 2 ^ 104 :=
            Nat.mul_le_mul hmantissa.le (Nat.pow_le_pow_right (by decide) (by omega))
        _ < 10 ^ 113 := by norm_num

/-- The singles without a numeral are those that are not finite. -/
theorem ofSingle?_eq_none_iff {single : Float32} :
    ofSingle? single = none ↔ single.isFinite = false := by
  rw [ofSingle?, isFinite_eq]
  cases parts single with
  | finite sign mantissa exponent hpos =>
    simp [UnpackedFloat.isFinite]
  | _ => simp [UnpackedFloat.isFinite]

end Lindenmayer.Numeral
