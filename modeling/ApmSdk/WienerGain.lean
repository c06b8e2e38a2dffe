import ApmSdk.NearFilter
import Mathlib.Algebra.Order.Field.Basic
import Mathlib.Algebra.Order.Field.Power
import Mathlib.Algebra.Order.Group.MinMax
import Mathlib.Tactic.FieldSimp

namespace ApmSdk.Aecm

/-!
# The Wiener gain

The gain of a bin is one minus the echo, raised by the suppression gain, over the near end.
The product of echo and gain is formed with as many bits of each as fit, divided with
rounding, and moved into Q14.
-/

/-- `WEBRTC_SPL_SHIFT_W32` of a `uint32_t`. -/
def shiftU32 (x c : Int) : Int :=
  if 0 ≤ c then uint32 (x * 2 ^ c.toNat) else x >>> (-c).toNat

/-- `WebRtcSpl_DivU32U16` -/
def divU32U16 (num den : Int) : Int :=
  if den ≠ 0 then num / den else 0xFFFFFFFF

/-- What the gain of a bin is made of: the filtered echo estimate, the suppression gain,
the filtered near end, and `dfaCleanQDomain - zerosXBuf`. -/
structure GainInput where
  echoFilt : Int
  supGain : Int
  nearFilt : Int
  qDiff : Int
  echo : 0 ≤ echoFilt ∧ echoFilt < 2 ^ 31
  gain : 0 ≤ supGain ∧ supGain < 2 ^ 15
  near : 0 ≤ nearFilt ∧ nearFilt < 2 ^ 15
  domains : -15 ≤ qDiff ∧ qDiff ≤ 15

namespace GainInput

/-- `zeros32` -/
def zeros32 (input : GainInput) : Nat :=
  normW32 input.echoFilt + 1

/-- `zeros16` -/
def zeros16 (input : GainInput) : Nat :=
  normW16 input.supGain + 1

/-- `tmp16no1`, the bits by which a factor is cut, and 0 where none is. -/
def tmp16no1 (input : GainInput) : Nat :=
  17 - input.zeros32 - input.zeros16

/-- `echoEst32Gained` -/
def echoEst32Gained (input : GainInput) : Int :=
  if 16 < input.zeros32 + input.zeros16 then
    uint32 (uint32 input.echoFilt * uint16 input.supGain)
  else if input.tmp16no1 < input.zeros32 then
    uint32
      (uint32 input.echoFilt * uint16 (input.supGain >>> input.tmp16no1))
  else uint32 (input.echoFilt >>> input.tmp16no1 * input.supGain)

/-- `resolutionDiff` -/
def resolutionDiff (input : GainInput) : Int :=
  if 16 < input.zeros32 + input.zeros16 then 14 - 12 - 8 + input.qDiff
  else 14 + input.tmp16no1 - 12 - 8 + input.qDiff

/-- `hnl` -/
def hnl (input : GainInput) : Int :=
  if input.echoEst32Gained = 0 then oneQ14
  else if input.nearFilt = 0 then 0
  else
    let echoEst32Gained :=
      uint32 (input.echoEst32Gained + uint32 (input.nearFilt >>> (1 : Nat)))
    let tmpU32 := divU32U16 echoEst32Gained (uint16 input.nearFilt)
    let tmp32no1 := int32 (shiftU32 tmpU32 input.resolutionDiff)
    if oneQ14 < tmp32no1 then 0
    else if tmp32no1 < 0 then oneQ14
    else
      let hnl := oneQ14 - int16 tmp32no1
      if hnl < 0 then 0 else hnl

/-! ## The exact gain -/

/-- The product of the echo and the gain, with the bits of each that fit. -/
def product (input : GainInput) : Int :=
  if 16 < input.zeros32 + input.zeros16 then
    input.echoFilt * input.supGain
  else if input.tmp16no1 < input.zeros32 then
    input.echoFilt * input.supGain >>> input.tmp16no1
  else input.echoFilt >>> input.tmp16no1 * input.supGain

/-- The quotient of the gained echo and the near end, rounded. -/
def quotient (input : GainInput) : Int :=
  (input.product + input.nearFilt / 2) / input.nearFilt

/-- The quotient in Q14, at any size. -/
def scaled (input : GainInput) : Int :=
  if 0 ≤ input.resolutionDiff then
    input.quotient * 2 ^ input.resolutionDiff.toNat
  else input.quotient / 2 ^ (-input.resolutionDiff).toNat

/-- The quotient fits `int32_t` in Q14. -/
def ShiftFits (input : GainInput) : Prop :=
  input.scaled < 2 ^ 31

instance (input : GainInput) : Decidable input.ShiftFits :=
  inferInstanceAs (Decidable (_ < _))

/-- The clamp of one minus the gained echo over the near end, in Q14. -/
def exactGain (input : GainInput) : ℚ :=
  max
    (2 ^ 14 -
      input.supGain * input.echoFilt * 2 ^ (input.qDiff - 6) / input.nearFilt)
    0

/-- The factor of the product that is not cut, 0 where none is cut. -/
def kept (input : GainInput) : Int :=
  if 16 < input.zeros32 + input.zeros16 then 0
  else if input.tmp16no1 < input.zeros32 then input.echoFilt
  else input.supGain

/-- What rounding and cutting may change: half a unit of the quotient, one unit of the
shift, and less than a unit of the factor that is cut. -/
def roundingError (input : GainInput) : ℚ :=
  2 ^ input.resolutionDiff / 2 + 1 +
    input.kept * 2 ^ input.resolutionDiff / input.nearFilt

/-- A louder echo or a greater gain for the same near end and the same bits. -/
structure Louder (input louder : GainInput) : Prop where
  echoFilt : input.echoFilt ≤ louder.echoFilt
  supGain : input.supGain ≤ louder.supGain
  nearFilt : louder.nearFilt = input.nearFilt
  qDiff : louder.qDiff = input.qDiff
  echoBits : normW32 louder.echoFilt = normW32 input.echoFilt
  gainBits : normW16 louder.supGain = normW16 input.supGain

/-! ## The product -/

end GainInput

/-- A normalised word of 15 bits fits. -/
theorem normW16_fits
    {value : Int}
    (range : 0 ≤ value ∧ value < 2 ^ 15) :
    value * 2 ^ normW16 value < 2 ^ 15 := by
  rcases range.1.eq_or_lt with isZero | positive
  · simp [← isZero]
  · exact (normW16_normalises positive range.2).2

/-- Two factors whose bits have been cut have a product that fits, where the norms and the
cut leave as many bits. -/
theorem product_fits
    {wide narrow first second : Int}
    {zerosWide zerosNarrow cut wideBits narrowBits bits : Nat}
    (nonneg : 0 ≤ narrow)
    (wideFits : wide * 2 ^ zerosWide ≤ 2 ^ wideBits)
    (narrowFits : narrow * 2 ^ zerosNarrow < 2 ^ narrowBits)
    (enough :
      wideBits + narrowBits ≤ bits + (zerosWide + zerosNarrow + cut))
    (isCut : first * second * 2 ^ cut ≤ wide * narrow) :
    first * second < 2 ^ bits := by
  have power :
      (2 : Int) ^ wideBits * 2 ^ narrowBits ≤
        2 ^ bits * (2 ^ zerosWide * 2 ^ zerosNarrow * 2 ^ cut) := by
    rw [← pow_add, ← pow_add, ← pow_add, ← pow_add]
    exact pow_le_pow_right₀ (by decide) enough
  have bound :
      first * second * (2 ^ zerosWide * 2 ^ zerosNarrow * 2 ^ cut) <
        2 ^ bits * (2 ^ zerosWide * 2 ^ zerosNarrow * 2 ^ cut) := by
    calc
      first * second * (2 ^ zerosWide * 2 ^ zerosNarrow * 2 ^ cut)
        = first * second * 2 ^ cut *
            (2 ^ zerosWide * 2 ^ zerosNarrow) := by
          ring
      _ ≤ wide * narrow * (2 ^ zerosWide * 2 ^ zerosNarrow) :=
          mul_le_mul_of_nonneg_right isCut (by positivity)
      _ = wide * 2 ^ zerosWide * (narrow * 2 ^ zerosNarrow) := by
          ring
      _ < 2 ^ wideBits * 2 ^ narrowBits :=
          mul_lt_mul' wideFits narrowFits
            (mul_nonneg nonneg (by positivity)) (by positivity)
      _ ≤ 2 ^ bits * (2 ^ zerosWide * 2 ^ zerosNarrow * 2 ^ cut) := power
  exact lt_of_mul_lt_mul_right bound (by positivity)

namespace GainInput

variable (input : GainInput)

/-- The product has 31 bits, and what it is short of is less than a unit of the factor that
is cut. -/
theorem product_spec :
    (0 ≤ input.product ∧ input.product < 2 ^ 31) ∧
      input.product * 2 ^ input.tmp16no1 ≤
        input.supGain * input.echoFilt ∧
      input.supGain * input.echoFilt -
          input.product * 2 ^ input.tmp16no1 ≤
        input.kept * 2 ^ input.tmp16no1 := by
  have echo := input.echo
  have gain := input.gain
  have wide := normW32_fits echo
  have narrow := normW16_fits gain
  have bits :
      31 + 15 ≤
        31 +
          (normW32 input.echoFilt + normW16 input.supGain +
            input.tmp16no1) := by
    unfold tmp16no1 zeros32 zeros16
    omega
  unfold product kept
  rw [mul_comm input.supGain]
  split
  next safe =>
      have uncut : input.tmp16no1 = 0 := by
        unfold tmp16no1
        omega
      rw [uncut] at bits ⊢
      have fits : input.echoFilt * input.supGain < 2 ^ 31 :=
        product_fits gain.1 wide.le narrow bits (by simp)
      exact ⟨⟨mul_nonneg echo.1 gain.1, fits⟩, by simp, by simp⟩
  next =>
    split
    next =>
        have cut := shiftRight_cut input.supGain input.tmp16no1
        have part := (shiftRight_bounds gain.1 input.tmp16no1).1
        have isCut :
            input.echoFilt * input.supGain >>> input.tmp16no1 *
                2 ^ input.tmp16no1 ≤
              input.echoFilt * input.supGain := by
          rw [mul_assoc]
          exact mul_le_mul_of_nonneg_left cut.1 echo.1
        have fits :=
          product_fits gain.1 wide.le narrow bits isCut
        have rest := mul_le_mul_of_nonneg_left cut.2 echo.1
        refine ⟨⟨mul_nonneg echo.1 part, fits⟩, isCut, ?_⟩
        rw [add_mul, one_mul, mul_add, ← mul_assoc] at rest
        omega
    next =>
        have cut := shiftRight_cut input.echoFilt input.tmp16no1
        have part := (shiftRight_bounds echo.1 input.tmp16no1).1
        have isCut :
            input.echoFilt >>> input.tmp16no1 * input.supGain *
                2 ^ input.tmp16no1 ≤
              input.echoFilt * input.supGain := by
          rw [mul_right_comm]
          exact mul_le_mul_of_nonneg_right cut.1 gain.1
        have fits :=
          product_fits gain.1 wide.le narrow bits isCut
        have rest := mul_le_mul_of_nonneg_right cut.2 gain.1
        refine ⟨⟨mul_nonneg part gain.1, fits⟩, isCut, ?_⟩
        rw [add_mul, one_mul, add_mul, mul_right_comm,
          mul_comm (2 ^ input.tmp16no1)] at rest
        omega

/-- The product never wraps. -/
theorem echoEst32Gained_eq :
    input.echoEst32Gained = input.product := by
  have range := input.product_spec.1
  have echo := input.echo
  have gain := input.gain
  have echoWord : uint32 input.echoFilt = input.echoFilt :=
    Int.emod_eq_of_lt echo.1 (by omega)
  unfold echoEst32Gained
  unfold product at range ⊢
  split
  next safe =>
      rw [if_pos safe] at range
      have gainWord : uint16 input.supGain = input.supGain :=
        uint16_of_bounds gain.1 (by omega)
      rw [echoWord, gainWord]
      exact Int.emod_eq_of_lt range.1 (by omega)
  next wrapping =>
    rw [if_neg wrapping] at range
    split
    next narrow =>
        rw [if_pos narrow] at range
        have part := shiftRight_bounds gain.1 input.tmp16no1
        have gainWord :
            uint16 (input.supGain >>> input.tmp16no1) =
              input.supGain >>> input.tmp16no1 :=
          uint16_of_bounds part.1 (by omega)
        rw [echoWord, gainWord]
        exact Int.emod_eq_of_lt range.1 (by omega)
    next wide =>
        rw [if_neg wide] at range
        exact Int.emod_eq_of_lt range.1 (by omega)

/-- The domain of the quotient. -/
theorem resolutionDiff_eq :
    input.resolutionDiff = input.tmp16no1 + (input.qDiff - 6) := by
  unfold resolutionDiff tmp16no1
  split <;> omega

/-! ## The gain -/

/-- The rounded quotient is not negative. -/
theorem quotient_nonneg : 0 ≤ input.quotient := by
  have product := input.product_spec.1.1
  have near := input.near.1
  unfold quotient
  positivity

/-- Neither is the quotient in Q14. -/
theorem scaled_nonneg : 0 ≤ input.scaled := by
  have nonneg := input.quotient_nonneg
  unfold scaled
  split <;> positivity

/-- Where it fits, the gain is one minus the quotient in Q14, and not negative. -/
theorem hnl_of_fits
    (near : 0 < input.nearFilt)
    (fits : input.ShiftFits) :
    input.hnl = max (2 ^ 14 - input.scaled) 0 := by
  have product := input.product_spec.1
  have range := input.near
  have nonneg := input.scaled_nonneg
  have quotientNonneg := input.quotient_nonneg
  unfold ShiftFits at fits
  unfold hnl
  rw [input.echoEst32Gained_eq]
  split
  next silent =>
      have rounded : input.quotient = 0 := by
        unfold quotient
        rw [silent, zero_add]
        exact Int.ediv_eq_zero_of_lt (by omega) (by omega)
      have isZero : input.scaled = 0 := by
        unfold scaled
        rw [rounded]
        split <;> simp
      rw [isZero]
      rfl
  next =>
      have half :
          uint32 (input.nearFilt >>> (1 : Nat)) = input.nearFilt / 2 := by
        rw [Int.shiftRight_eq_div_pow]
        exact Int.emod_eq_of_lt (by omega) (by omega)
      have sum :
          uint32 (input.product + input.nearFilt / 2) =
            input.product + input.nearFilt / 2 :=
        Int.emod_eq_of_lt (by omega) (by omega)
      have den : uint16 input.nearFilt = input.nearFilt :=
        uint16_of_bounds range.1 (by omega)
      have quotient :
          divU32U16 (input.product + input.nearFilt / 2)
              input.nearFilt =
            input.quotient :=
        if_pos near.ne'
      have shifted :
          int32 (shiftU32 input.quotient input.resolutionDiff) =
            input.scaled := by
        unfold shiftU32
        unfold scaled at fits nonneg ⊢
        split
        next upward =>
            rw [if_pos upward] at fits nonneg
            have word :
                uint32
                    (input.quotient * 2 ^ input.resolutionDiff.toNat) =
                  input.quotient * 2 ^ input.resolutionDiff.toNat :=
              Int.emod_eq_of_lt nonneg (by omega)
            rw [word, int32_of_bounds (by omega) (by omega)]
        next downward =>
            rw [if_neg downward] at fits nonneg
            rw [Int.shiftRight_eq_div_pow, Nat.cast_pow, Nat.cast_ofNat,
              int32_of_bounds (by omega) (by omega)]
      rw [if_neg near.ne']
      simp only [half, sum, den, quotient, shifted, oneQ14]
      split
      next =>
          omega
      next =>
          rw [if_neg (by omega), int16_of_bounds (by omega) (by omega),
            if_neg (by omega)]
          omega

/-- Without a near end the gain is one where there is no echo, and zero where there is. -/
theorem hnl_of_silence
    (silence : input.nearFilt = 0) :
    input.hnl = if input.product = 0 then 2 ^ 14 else 0 := by
  unfold hnl
  rw [input.echoEst32Gained_eq, if_pos silence]

/-- The gain is between zero and one in Q14, whatever wraps. -/
theorem hnl_bounds : 0 ≤ input.hnl ∧ input.hnl ≤ 2 ^ 14 := by
  unfold hnl
  dsimp only [oneQ14]
  split_ifs with _ _ above below negative
  · omega
  · omega
  · omega
  · omega
  · omega
  · rw [int16_of_bounds (by omega) (by omega)] at negative ⊢
    omega

/-! ## How far the gain is from the exact one -/

/-- A quotient that is rounded by adding half of the divisor. -/
theorem rounded_div_close
    (num : Int)
    {den : Int}
    (positive : 0 < den) :
    |(((num + den / 2) / den : Int) : ℚ) - num / den| ≤ 1 / 2 := by
  have positiveRat : (0 : ℚ) < den := by
    exact_mod_cast positive
  have division := Int.mul_ediv_add_emod (num + den / 2) den
  have nonneg := Int.emod_nonneg (num + den / 2) positive.ne'
  have below := Int.emod_lt_of_pos (num + den / 2) positive
  have upper : 2 * ((num + den / 2) / den * den) ≤ 2 * num + den := by
    rw [mul_comm ((num + den / 2) / den)]
    omega
  have lower : 2 * num ≤ 2 * ((num + den / 2) / den * den) + den := by
    rw [mul_comm ((num + den / 2) / den)]
    omega
  have upperRat :
      2 * ((((num + den / 2) / den : Int) : ℚ) * den) ≤ 2 * num + den := by
    exact_mod_cast upper
  have lowerRat :
      (2 * num : ℚ) ≤
        2 * ((((num + den / 2) / den : Int) : ℚ) * den) + den := by
    exact_mod_cast lower
  rw [abs_sub_le_iff]
  constructor
  · rw [sub_le_iff_le_add, ← sub_le_iff_le_add', le_div_iff₀ positiveRat]
    linarith
  · rw [sub_le_iff_le_add, div_le_iff₀ positiveRat]
    linarith

/-- The quotient in Q14 is the rounded one, moved, and less than one below it. -/
theorem scaled_close :
    (input.scaled : ℚ) ≤ input.quotient * 2 ^ input.resolutionDiff ∧
      input.quotient * 2 ^ input.resolutionDiff ≤ (input.scaled : ℚ) + 1 := by
  unfold scaled
  split
  next upward =>
      obtain ⟨shift, isShift⟩ := Int.eq_ofNat_of_zero_le upward
      rw [isShift, Int.toNat_natCast, zpow_natCast]
      push_cast
      constructor
      · exact le_rfl
      · linarith
  next downward =>
      obtain ⟨shift, isShift⟩ :=
        Int.eq_ofNat_of_zero_le (show 0 ≤ -input.resolutionDiff by omega)
      have negative : input.resolutionDiff = -(shift : Int) := by
        omega
      have cut := shiftRight_cut input.quotient shift
      rw [Int.shiftRight_eq_div_pow, Nat.cast_pow, Nat.cast_ofNat] at cut
      rw [negative, neg_neg, Int.toNat_natCast, zpow_neg, zpow_natCast,
        ← div_eq_mul_inv]
      have positive : (0 : ℚ) < 2 ^ shift := by
        positivity
      rw [le_div_iff₀ positive, div_le_iff₀ positive]
      exact ⟨by exact_mod_cast cut.1, by exact_mod_cast cut.2⟩

/-- The product in the domain of the quotient. -/
theorem product_close :
    (input.product : ℚ) * 2 ^ input.resolutionDiff ≤
        input.supGain * input.echoFilt * 2 ^ (input.qDiff - 6) ∧
      (input.supGain * input.echoFilt * 2 ^ (input.qDiff - 6) : ℚ) ≤
        (input.product + input.kept) * 2 ^ input.resolutionDiff := by
  obtain ⟨-, lower, upper⟩ := input.product_spec
  have positive : (0 : ℚ) < 2 ^ (input.qDiff - 6) := by
    positivity
  have lowerRat :
      (input.product * 2 ^ input.tmp16no1 : ℚ) ≤
        input.supGain * input.echoFilt := by
    exact_mod_cast lower
  have upperRat :
      (input.supGain * input.echoFilt : ℚ) ≤
        (input.product + input.kept) * 2 ^ input.tmp16no1 := by
    rw [add_mul, ← sub_le_iff_le_add']
    exact_mod_cast upper
  rw [input.resolutionDiff_eq, zpow_add₀ (by norm_num), zpow_natCast,
    ← mul_assoc, ← mul_assoc]
  exact
    ⟨mul_le_mul_of_nonneg_right lowerRat positive.le,
      mul_le_mul_of_nonneg_right upperRat positive.le⟩

/-- The quotient in Q14 is as close to the exact one as rounding and cutting allow. -/
theorem scaled_sub_exact
    (near : 0 < input.nearFilt) :
    |(input.scaled : ℚ) -
        input.supGain * input.echoFilt * 2 ^ (input.qDiff - 6) /
          input.nearFilt| ≤
      input.roundingError := by
  have positive : (0 : ℚ) < input.nearFilt := by
    exact_mod_cast near
  have unit : (0 : ℚ) < 2 ^ input.resolutionDiff := by
    positivity
  obtain ⟨below, above⟩ := input.scaled_close
  obtain ⟨least, most⟩ := input.product_close
  have rounded : |(input.quotient : ℚ) - _ / _| ≤ 1 / 2 :=
    rounded_div_close input.product near
  rw [abs_sub_le_iff] at rounded
  have roundedUp :=
    mul_le_mul_of_nonneg_right rounded.1 unit.le
  have roundedDown :=
    mul_le_mul_of_nonneg_right rounded.2 unit.le
  have leastQuotient := div_le_div_of_nonneg_right least positive.le
  have mostQuotient := div_le_div_of_nonneg_right most positive.le
  rw [sub_mul, div_mul_eq_mul_div] at roundedUp roundedDown
  rw [add_mul, add_div] at mostQuotient
  have cut :
      (0 : ℚ) ≤ input.kept * 2 ^ input.resolutionDiff / input.nearFilt := by
    linarith
  unfold roundingError
  rw [abs_sub_le_iff]
  constructor
  · linarith
  · linarith

/-- The gain is as close to the exact one. -/
theorem hnl_sub_exactGain
    (near : 0 < input.nearFilt)
    (fits : input.ShiftFits) :
    |(input.hnl : ℚ) - input.exactGain| ≤ input.roundingError := by
  have close := input.scaled_sub_exact near
  have gain :
      (input.hnl : ℚ) = max (2 ^ 14 - (input.scaled : ℚ)) 0 := by
    rw [input.hnl_of_fits near fits]
    push_cast
    rfl
  rw [gain, exactGain]
  refine (abs_max_sub_max_le_abs _ _ _).trans ?_
  rw [abs_sub_comm] at close
  calc
    |(2 ^ 14 - (input.scaled : ℚ)) - (2 ^ 14 - _)|
      = |_ - (input.scaled : ℚ)| := by
        rw [sub_sub_sub_cancel_left]
    _ ≤ input.roundingError := close

/-! ## A louder echo -/

variable {input}

theorem Louder.zeros32
    {louder : GainInput}
    (isLouder : Louder input louder) :
    louder.zeros32 = input.zeros32 :=
  congrArg (· + 1) isLouder.echoBits

theorem Louder.zeros16
    {louder : GainInput}
    (isLouder : Louder input louder) :
    louder.zeros16 = input.zeros16 :=
  congrArg (· + 1) isLouder.gainBits

/-- The same bits are cut. -/
theorem Louder.tmp16no1
    {louder : GainInput}
    (isLouder : Louder input louder) :
    louder.tmp16no1 = input.tmp16no1 := by
  unfold GainInput.tmp16no1
  rw [isLouder.zeros32, isLouder.zeros16]

/-- With the same bits a louder echo has no smaller product. -/
theorem Louder.product_le
    {louder : GainInput}
    (isLouder : Louder input louder) :
    input.product ≤ louder.product := by
  unfold product
  rw [isLouder.tmp16no1, isLouder.zeros32, isLouder.zeros16]
  split
  next =>
      exact
        mul_le_mul isLouder.echoFilt isLouder.supGain input.gain.1
          louder.echo.1
  next =>
    split
    next =>
        exact
          mul_le_mul isLouder.echoFilt
            (shiftRight_mono isLouder.supGain)
            (shiftRight_bounds input.gain.1 _).1 louder.echo.1
    next =>
        exact
          mul_le_mul (shiftRight_mono isLouder.echoFilt)
            isLouder.supGain input.gain.1
            (shiftRight_bounds louder.echo.1 _).1

/-- Nor a smaller quotient in Q14. -/
theorem Louder.scaled_le
    {louder : GainInput}
    (isLouder : Louder input louder) :
    input.scaled ≤ louder.scaled := by
  have domain : louder.resolutionDiff = input.resolutionDiff := by
    rw [resolutionDiff_eq, resolutionDiff_eq, isLouder.tmp16no1,
      isLouder.qDiff]
  have product := isLouder.product_le
  have quotient : input.quotient ≤ louder.quotient := by
    unfold GainInput.quotient
    rw [isLouder.nearFilt]
    rcases input.near.1.eq_or_lt with isZero | positive
    · simp [← isZero]
    · exact Int.ediv_le_ediv positive (by omega)
  unfold scaled
  rw [domain]
  split
  next =>
      exact mul_le_mul_of_nonneg_right quotient (by positivity)
  next =>
      exact Int.ediv_le_ediv (by positivity) quotient

/-- With the same bits a louder echo has no greater gain. -/
theorem Louder.hnl_le
    {louder : GainInput}
    (isLouder : Louder input louder)
    (fits : louder.ShiftFits) :
    louder.hnl ≤ input.hnl := by
  have scaled := isLouder.scaled_le
  rcases input.near.1.eq_or_lt with isZero | positive
  · have product := isLouder.product_le
    have nonneg := input.product_spec.1.1
    rw [input.hnl_of_silence isZero.symm,
      louder.hnl_of_silence (isLouder.nearFilt.trans isZero.symm)]
    split <;> split <;> omega
  · rw [input.hnl_of_fits positive (lt_of_le_of_lt scaled fits),
      louder.hnl_of_fits (isLouder.nearFilt ▸ positive) fits]
    omega

/-- An echo of half the near end, with 22 bits. -/
def halfEcho : GainInput where
  echoFilt := 2 ^ 22 - 1
  supGain := 511
  nearFilt := 32000
  qDiff := 3
  echo := by decide
  gain := by decide
  near := by decide
  domains := by decide

/-- An echo that is louder by one, with 23 bits. -/
def halfEchoLouder : GainInput :=
  { halfEcho with
    echoFilt := 2 ^ 22
    echo := by decide }

end GainInput

end ApmSdk.Aecm
