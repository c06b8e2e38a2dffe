import ApmSdk.QDomains
import Mathlib.Algebra.Order.Group.MinMax

namespace ApmSdk.Nsx

/-!
# The suppression filter of the fixed-point suppressor

The gain of a bin is the prior SNR over the sum of itself and the overdrive.  The prior SNR
is directed by the decision of the frame before, so it weighs what that filter has let
through against what the current frame has above the noise.  During the start-up the gain
is mixed with that of a parametric Wiener filter.
-/

/-- `satMax` -/
abbrev satMax : Int := 1048575

/-- `DD_PR_SNR_Q11` -/
abbrev ddPrSnrQ11 : Int := 2007

/-- `ONE_MINUS_DD_PR_SNR_Q11` -/
abbrev oneMinusDdPrSnrQ11 : Int := 41

/-- What the filter has of an aggressiveness. -/
structure Policy where
  overdrive : Int
  denoiseBound : Int
  overdriveRange : 256 ≤ overdrive ∧ overdrive ≤ 320
  denoiseRange : 1475 ≤ denoiseBound ∧ denoiseBound ≤ 8192

/-- The default aggressiveness. -/
def Policy.mild : Policy where
  overdrive := 256
  denoiseBound := 8192
  overdriveRange := by decide
  denoiseRange := by decide

/-- `WebRtcNsx_set_policy_core`, where it does not return -1. -/
def setPolicyCore (mode : Int) : Option Policy :=
  if mode < 0 ∨ 3 < mode then none
  else if mode = 0 then some .mild
  else if mode = 1 then some ⟨256, 4096, by decide, by decide⟩
  else if mode = 2 then some ⟨282, 2048, by decide, by decide⟩
  else some ⟨320, 1475, by decide, by decide⟩

/-- What the parametric filter of the start-up is made of. -/
structure ParametricBin where
  initMagnEst : UInt32
  noiseEstimate : UInt32

/-- `noiseSupFilterTmp` -/
def ParametricBin.filter (bin : ParametricBin) (policy : Policy) : Int :=
  if bin.initMagnEst ≠ 0 then
    let tmpU32no1 := uint32 (bin.noiseEstimate.toNat * policy.overdrive)
    let numerator := uint32 (bin.initMagnEst.toNat * 2 ^ 8)
    if tmpU32no1 < numerator then
      let numerator := numerator - tmpU32no1
      let nShifts := (sat 6 (Agc.normU32 numerator) 0).toNat
      let numerator := uint32 (numerator * 2 ^ nShifts)
      let tmpU32no1 := (bin.initMagnEst.toNat : Int) >>> (6 - nShifts)
      let tmpU32no1 := if tmpU32no1 = 0 then 1 else tmpU32no1
      uint16 (sat 16384 (numerator / tmpU32no1) policy.denoiseBound)
    else policy.denoiseBound
  else policy.denoiseBound

/-- What a turn of the last loop over the bins reads. -/
structure GainBin where
  policy : Policy
  blockIndex : Int
  magn : UInt16
  noise : Int
  prevMagn : UInt16
  prevNoise : Int
  prevFilter : Int
  /-- `nShifts` of step 1. -/
  prevShifts : Int
  /-- `nShifts` of step 3. -/
  nShifts : Int
  /-- What a shift gives whose count the language does not define. -/
  undefinedShift : UInt32
  parametric : ParametricBin

namespace GainBin

variable (bin : GainBin)

/-- `tmpU32no2`, the noise of the frame before. -/
def prevNearNoise : Int :=
  if 0 ≤ bin.prevShifts ∧ bin.prevShifts < 32 then
    bin.prevNoise >>> bin.prevShifts.toNat
  else bin.undefinedShift.toNat

/-- `prevNearSnr` -/
def prevNearSnr : Int :=
  let nearMagnEst := uint32 (bin.prevMagn.toNat * bin.prevFilter)
  let tmpU32no1 := uint32 (nearMagnEst * 2 ^ 3)
  if 0 < bin.prevNearNoise then
    min satMax (tmpU32no1 / bin.prevNearNoise)
  else satMax

/-- `curNearSnr` -/
def curNearSnr : Int :=
  let (tmpMagnU32, tmpNoiseU32) :=
    DomainCore.commonDomain bin.nShifts bin.magn bin.noise
  if tmpNoiseU32 < tmpMagnU32 then
    let tmpU32no1 := tmpMagnU32 - tmpNoiseU32
    let norm32no2 := min 11 (Agc.normU32 tmpU32no1)
    let tmpU32no1 := uint32 (tmpU32no1 * 2 ^ norm32no2)
    let tmpU32no2 := tmpNoiseU32 >>> (11 - norm32no2)
    min satMax
      (if 0 < tmpU32no2 then tmpU32no1 / tmpU32no2 else tmpU32no1)
  else 0

/-- `priorSnr` -/
def priorSnr : Int :=
  uint32
    (uint32 (bin.prevNearSnr * ddPrSnrQ11) +
      uint32 (bin.curNearSnr * oneMinusDdPrSnrQ11))

/-- `tmpU32no1`, the prior SNR and the overdrive. -/
def divisor : Int :=
  uint32 (bin.policy.overdrive + uint32 (bin.priorSnr + 8192) >>> (14 : Nat))

/-- `noiseSupFilter` before the start-up weighting. -/
def gain : Int :=
  let tmpU16no1 :=
    uint16 (uint32 (bin.priorSnr + bin.divisor / 2) / bin.divisor)
  sat 16384 tmpU16no1 bin.policy.denoiseBound

/-- The gain mixed with the parametric filter. -/
def weightedGain : Int :=
  let tmpU32no1 := uint32 (bin.gain * bin.blockIndex)
  let tmpU32no2 :=
    uint32
      (bin.parametric.filter bin.policy * (endStartupShort - bin.blockIndex))
  uint16 (Aecm.divU32U16 (uint32 (tmpU32no1 + tmpU32no2)) endStartupShort)

/-- `noiseSupFilter` -/
def noiseSupFilter : Int :=
  if bin.blockIndex < endStartupShort then bin.weightedGain else bin.gain

/-! ## What a turn must do -/

/-- The exact prior SNR: that of the frame before, and that of the current one. -/
def exactSnr : ℚ :=
  (bin.prevNearSnr * ddPrSnrQ11 + bin.curNearSnr * oneMinusDdPrSnrQ11) / 2 ^ 22

/-- The clamp of the prior SNR over the sum of itself and the overdrive, in Q14. -/
def exactGain : ℚ :=
  max bin.policy.denoiseBound
    (min 16384
      (16384 * bin.exactSnr / (bin.policy.overdrive / 2 ^ 8 + bin.exactSnr)))

/-- A turn wraps nothing and loses nothing, and its gain is in range and near the exact
one. -/
structure Kept : Prop where
  prevNearSnr : 0 ≤ bin.prevNearSnr ∧ bin.prevNearSnr ≤ satMax
  curNearSnr : 0 ≤ bin.curNearSnr ∧ bin.curNearSnr ≤ satMax
  prevProduct : bin.prevNearSnr * ddPrSnrQ11 < 2 ^ 32
  curProduct : bin.curNearSnr * oneMinusDdPrSnrQ11 < 2 ^ 32
  priorSnr :
    bin.prevNearSnr * ddPrSnrQ11 + bin.curNearSnr * oneMinusDdPrSnrQ11 < 2 ^ 32
  rounded : bin.priorSnr + 8192 < 2 ^ 32
  divisor :
    bin.policy.overdrive + uint32 (bin.priorSnr + 8192) >>> (14 : Nat) < 2 ^ 32
  numerator : bin.priorSnr + bin.divisor / 2 < 2 ^ 32
  quotient : (bin.priorSnr + bin.divisor / 2) / bin.divisor < 2 ^ 16
  near : |(bin.gain : ℚ) - bin.exactGain| ≤ 16
  startup :
    bin.blockIndex < endStartupShort →
      bin.gain * bin.blockIndex +
            bin.parametric.filter bin.policy *
              (endStartupShort - bin.blockIndex) < 2 ^ 32 ∧
        0 ≤ bin.gain * bin.blockIndex ∧
        0 ≤ bin.parametric.filter bin.policy *
              (endStartupShort - bin.blockIndex) ∧
        (bin.gain * bin.blockIndex +
            bin.parametric.filter bin.policy *
              (endStartupShort - bin.blockIndex)) / endStartupShort < 2 ^ 16
  range :
    bin.policy.denoiseBound ≤ bin.noiseSupFilter ∧ bin.noiseSupFilter ≤ 16384

end GainBin

/-! ## The rounded quotient -/

/-- Where the divisor is off by half a unit, the quotient is small beside it. -/
theorem quotient_le
    {overdrive prior divisor quotient : Int}
    (least : 256 ≤ overdrive)
    (nonneg : 0 ≤ prior)
    (lower : prior - 8191 ≤ (divisor - overdrive) * 2 ^ 14)
    (upper : (divisor - overdrive) * 2 ^ 14 ≤ prior + 8192)
    (quotientNonneg : 0 ≤ quotient)
    (below : 2 * (quotient * divisor) ≤ 2 * prior + divisor) :
    8192 * quotient ≤ 15 * (overdrive * 2 ^ 14 + prior) := by
  have large : 2 ^ 22 ≤ overdrive * 2 ^ 14 + prior := by
    omega
  -- the mean of the overdrive and the prior SNR is not below their geometric mean
  have mean :
      2 ^ 24 * prior ≤ (overdrive * 2 ^ 14 + prior) ^ 2 := by
    have squared : 0 ≤ (overdrive * 2 ^ 14 - prior) ^ 2 := by
      positivity
    have scaled : 2 ^ 22 * prior ≤ overdrive * 2 ^ 14 * prior :=
      mul_le_mul_of_nonneg_right (by omega) nonneg
    linarith
  have offset : quotient * (prior - 8191) ≤
      quotient * ((divisor - overdrive) * 2 ^ 14) :=
    mul_le_mul_of_nonneg_left lower quotientNonneg
  by_contra heavy
  generalize whole : overdrive * 2 ^ 14 + prior = sum at *
  have scaled :
      15 * sum * (sum - 8191) ≤ 8192 * quotient * (sum - 8191) :=
    mul_le_mul_of_nonneg_right (by omega) (by omega)
  have product : 2 * (quotient * (sum - 8191)) ≤
      2 ^ 15 * prior + sum + 8192 := by
    rw [← whole]
    linarith
  have square : 2 ^ 22 * sum ≤ sum ^ 2 := by
    rw [pow_two]
    exact mul_le_mul_of_nonneg_right large (by omega)
  linarith

/-- The divisor is rounded by half a unit, which moves the quotient by less than sixteen
units with its own rounding. -/
theorem gainQuotient_near
    {overdrive prior : Int}
    (least : 256 ≤ overdrive)
    (nonneg : 0 ≤ prior) :
    let divisor := overdrive + (prior + 8192) / 2 ^ 14
    let quotient := (prior + divisor / 2) / divisor
    0 ≤ quotient ∧ quotient ≤ 16384 ∧
      |quotient * (overdrive * 2 ^ 14 + prior) - 2 ^ 14 * prior| ≤
        16 * (overdrive * 2 ^ 14 + prior) := by
  intro divisor quotient
  have lower : prior - 8191 ≤ (divisor - overdrive) * 2 ^ 14 := by
    dsimp only [divisor]
    omega
  have upper : (divisor - overdrive) * 2 ^ 14 ≤ prior + 8192 := by
    dsimp only [divisor]
    omega
  have positive : 256 ≤ divisor := by
    dsimp only [divisor]
    omega
  have half :
      divisor - 1 ≤ 2 * (divisor / 2) ∧ 2 * (divisor / 2) ≤ divisor := by
    omega
  have below : quotient * divisor ≤ prior + divisor / 2 :=
    Int.ediv_mul_le _ (by omega)
  have above : prior + divisor / 2 < (quotient + 1) * divisor :=
    Int.lt_ediv_add_one_mul_self _ (by omega)
  have quotientNonneg : 0 ≤ quotient :=
    Int.ediv_nonneg (by omega) (by omega)
  have quotientLe : quotient ≤ 16384 := by
    have less : prior + divisor / 2 < 16385 * divisor := by
      omega
    exact Int.lt_add_one_iff.mp (Int.ediv_lt_of_lt_mul (by omega) less)
  refine ⟨quotientNonneg, quotientLe, ?_⟩
  have small :=
    quotient_le least nonneg lower upper quotientNonneg (by omega)
  have first : quotient * (prior - 8191) ≤
      quotient * ((divisor - overdrive) * 2 ^ 14) :=
    mul_le_mul_of_nonneg_left lower quotientNonneg
  have second : quotient * ((divisor - overdrive) * 2 ^ 14) ≤
      quotient * (prior + 8192) :=
    mul_le_mul_of_nonneg_left upper quotientNonneg
  rw [abs_le]
  constructor <;> linarith

/-! ## One bin -/

theorem uint32_nonneg (value : Int) : 0 ≤ uint32 value :=
  Int.emod_nonneg _ (by decide)

/-- The parametric filter is between the bound of the policy and one. -/
theorem ParametricBin.filter_range
    (bin : ParametricBin)
    (policy : Policy) :
    policy.denoiseBound ≤ bin.filter policy ∧ bin.filter policy ≤ 16384 := by
  have bound := policy.denoiseRange
  have noFilter :
      policy.denoiseBound ≤ policy.denoiseBound ∧
        policy.denoiseBound ≤ 16384 :=
    ⟨le_rfl, by omega⟩
  unfold ParametricBin.filter
  dsimp only
  split
  · split
    · have clamped (value : Int) :
          policy.denoiseBound ≤
              uint16 (sat 16384 value policy.denoiseBound) ∧
            uint16 (sat 16384 value policy.denoiseBound) ≤ 16384 := by
        have range := sat_range noFilter.2 value
        rw [uint16_of_bounds (by omega) (by omega)]
        exact range
      exact clamped _
    · exact noFilter
  · exact noFilter

namespace GainBin

variable (bin : GainBin)

theorem prevNearSnr_range :
    0 ≤ bin.prevNearSnr ∧ bin.prevNearSnr ≤ satMax := by
  unfold prevNearSnr
  dsimp only
  split
  next divides =>
      refine ⟨le_min (by decide) ?_, min_le_left ..⟩
      exact Int.ediv_nonneg (uint32_nonneg _) divides.le
  next =>
      exact ⟨by decide, le_rfl⟩

theorem curNearSnr_range :
    0 ≤ bin.curNearSnr ∧ bin.curNearSnr ≤ satMax := by
  unfold curNearSnr
  dsimp only
  split
  next =>
      refine ⟨le_min (by decide) ?_, min_le_left ..⟩
      split
      next divides =>
          exact Int.ediv_nonneg (uint32_nonneg _) divides.le
      next =>
          exact uint32_nonneg _
  next =>
      exact ⟨le_rfl, by decide⟩

/-- The prior SNR is the sum of both products. -/
theorem priorSnr_eq :
    bin.priorSnr =
        bin.prevNearSnr * ddPrSnrQ11 +
          bin.curNearSnr * oneMinusDdPrSnrQ11 ∧
      0 ≤ bin.priorSnr ∧ bin.priorSnr ≤ 2048 * satMax := by
  have previous := bin.prevNearSnr_range
  have current := bin.curNearSnr_range
  unfold priorSnr
  dsimp only [satMax, ddPrSnrQ11, oneMinusDdPrSnrQ11] at *
  have product : uint32 (bin.prevNearSnr * 2007) = bin.prevNearSnr * 2007 :=
    uint32_of_bounds (by omega) (by omega)
  have otherProduct : uint32 (bin.curNearSnr * 41) = bin.curNearSnr * 41 :=
    uint32_of_bounds (by omega) (by omega)
  rw [product, otherProduct, uint32_of_bounds (by omega) (by omega)]
  omega

theorem divisor_eq :
    bin.divisor =
        bin.policy.overdrive + (bin.priorSnr + 8192) / 2 ^ 14 ∧
      bin.divisor < 2 ^ 18 := by
  obtain ⟨-, nonneg, small⟩ := bin.priorSnr_eq
  have overdrive := bin.policy.overdriveRange
  dsimp only [satMax] at small
  have shifted :
      uint32 (bin.priorSnr + 8192) >>> (14 : Nat) =
        (bin.priorSnr + 8192) / 2 ^ 14 := by
    rw [uint32_of_bounds (by omega) (by omega), Int.shiftRight_eq_div_pow,
      Nat.cast_pow, Nat.cast_ofNat]
  unfold divisor
  rw [shifted, uint32_of_bounds (by omega) (by omega)]
  exact ⟨rfl, by omega⟩

/-- The quotient of the prior SNR, before it is clamped. -/
def quotient : Int :=
  (bin.priorSnr + bin.divisor / 2) / bin.divisor

theorem gain_eq :
    bin.gain = sat 16384 bin.quotient bin.policy.denoiseBound ∧
      0 ≤ bin.quotient ∧ bin.quotient ≤ 16384 ∧
      |bin.quotient * (bin.policy.overdrive * 2 ^ 14 + bin.priorSnr) -
            2 ^ 14 * bin.priorSnr| ≤
        16 * (bin.policy.overdrive * 2 ^ 14 + bin.priorSnr) := by
  obtain ⟨-, nonneg, small⟩ := bin.priorSnr_eq
  obtain ⟨isDivisor, divisorSmall⟩ := bin.divisor_eq
  have near := gainQuotient_near bin.policy.overdriveRange.1 nonneg
  dsimp only at near
  rw [← isDivisor] at near
  dsimp only [satMax] at small
  have least := bin.policy.overdriveRange.1
  refine ⟨?_, near⟩
  unfold gain
  dsimp only
  rw [uint32_of_bounds (by omega) (by omega),
    uint16_of_bounds near.1 (by have := near.2.1; omega)]
  rfl

theorem gain_range :
    bin.policy.denoiseBound ≤ bin.gain ∧ bin.gain ≤ 16384 := by
  have bound := bin.policy.denoiseRange
  rw [bin.gain_eq.1]
  exact sat_range (by omega) _

/-- Saturation is a clamp. -/
theorem sat_eq_clamp
    {low high : Int}
    (ordered : low ≤ high)
    (value : Int) :
    sat high value low = max low (min high value) := by
  unfold sat
  split_ifs <;> omega

/-- The exact gain over integers. -/
theorem exactGain_eq :
    bin.exactGain =
      max (bin.policy.denoiseBound : ℚ)
        (min 16384
          ((2 ^ 14 * bin.priorSnr : Int) /
            (bin.policy.overdrive * 2 ^ 14 + bin.priorSnr : Int))) := by
  obtain ⟨isPrior, nonneg, -⟩ := bin.priorSnr_eq
  have least := bin.policy.overdriveRange.1
  have isSnr : bin.exactSnr = bin.priorSnr / 2 ^ 22 := by
    rw [isPrior, exactSnr]
    push_cast
    rfl
  have positive :
      (0 : ℚ) < bin.policy.overdrive * 2 ^ 14 + bin.priorSnr := by
    exact_mod_cast (by omega : 0 < bin.policy.overdrive * 2 ^ 14 + bin.priorSnr)
  have isRatio :
      16384 * bin.exactSnr / (bin.policy.overdrive / 2 ^ 8 + bin.exactSnr) =
        (2 ^ 14 * bin.priorSnr : Int) /
          (bin.policy.overdrive * 2 ^ 14 + bin.priorSnr : Int) := by
    have scaled :
        (bin.policy.overdrive / 2 ^ 8 + bin.priorSnr / 2 ^ 22 : ℚ) =
          (bin.policy.overdrive * 2 ^ 14 + bin.priorSnr) / 2 ^ 22 := by
      ring
    rw [isSnr, scaled]
    push_cast
    field_simp
    ring
  rw [exactGain, isRatio]

/-- A clamp brings values no further apart. -/
theorem clamp_near (low high first second : ℚ) :
    |max low (min high first) - max low (min high second)| ≤
      |first - second| := by
  rw [max_comm low, max_comm low, min_comm high, min_comm high]
  exact
    (abs_max_sub_max_le_abs ..).trans (abs_inf_sub_inf_le_abs ..)

/-- The gain is near the exact one. -/
theorem gain_near : |(bin.gain : ℚ) - bin.exactGain| ≤ 16 := by
  obtain ⟨isGain, -, -, near⟩ := bin.gain_eq
  have nonneg := bin.priorSnr_eq.2.1
  have least := bin.policy.overdriveRange.1
  have bound := bin.policy.denoiseRange
  have sum : 0 < bin.policy.overdrive * 2 ^ 14 + bin.priorSnr := by
    omega
  rw [isGain, exactGain_eq, sat_eq_clamp (by omega)]
  generalize bin.policy.overdrive * 2 ^ 14 + bin.priorSnr = whole at *
  generalize 2 ^ 14 * bin.priorSnr = part at *
  have positive : (0 : ℚ) < whole := by
    exact_mod_cast sum
  have unclamped : |(bin.quotient : ℚ) - part / whole| ≤ 16 := by
    have cleared :
        (bin.quotient : ℚ) - part / whole =
          (bin.quotient * whole - part) / whole := by
      field_simp
    rw [cleared, abs_div, abs_of_pos positive, div_le_iff₀ positive]
    exact_mod_cast near
  push_cast
  exact (clamp_near ..).trans unclamped

/-- The start-up weighting is a mean of the gain and the parametric filter. -/
theorem weightedGain_eq
    (startup : 0 ≤ bin.blockIndex ∧ bin.blockIndex < endStartupShort) :
    let sum :=
      bin.gain * bin.blockIndex +
        bin.parametric.filter bin.policy * (endStartupShort - bin.blockIndex)
    bin.weightedGain = sum / endStartupShort ∧
      0 ≤ bin.gain * bin.blockIndex ∧
      0 ≤ bin.parametric.filter bin.policy *
            (endStartupShort - bin.blockIndex) ∧
      endStartupShort * bin.policy.denoiseBound ≤ sum ∧
        sum ≤ endStartupShort * 16384 := by
  have bound := bin.policy.denoiseRange
  have gain := bin.gain_range
  have filter := bin.parametric.filter_range bin.policy
  dsimp only [endStartupShort] at *
  have later : 0 ≤ 50 - bin.blockIndex := by
    omega
  have gainLow := mul_le_mul_of_nonneg_right gain.1 startup.1
  have gainHigh := mul_le_mul_of_nonneg_right gain.2 startup.1
  have filterLow := mul_le_mul_of_nonneg_right filter.1 later
  have filterHigh := mul_le_mul_of_nonneg_right filter.2 later
  have boundLow := mul_nonneg (by omega : 0 ≤ bin.policy.denoiseBound) startup.1
  have boundHigh := mul_nonneg (by omega : 0 ≤ bin.policy.denoiseBound) later
  have whole :
      bin.policy.denoiseBound * bin.blockIndex +
          bin.policy.denoiseBound * (50 - bin.blockIndex) =
        50 * bin.policy.denoiseBound := by
    ring
  have product : uint32 (bin.gain * bin.blockIndex) =
      bin.gain * bin.blockIndex :=
    uint32_of_bounds (by omega) (by omega)
  have otherProduct :
      uint32 (bin.parametric.filter bin.policy * (50 - bin.blockIndex)) =
        bin.parametric.filter bin.policy * (50 - bin.blockIndex) :=
    uint32_of_bounds (by omega) (by omega)
  refine ⟨?_, by omega, by omega, by omega, by omega⟩
  unfold weightedGain Aecm.divU32U16
  dsimp only [endStartupShort]
  rw [product, otherProduct, uint32_of_bounds (by omega) (by omega),
    if_pos (by decide), uint16_of_bounds (by omega) (by omega)]

/-- Every turn does what it must. -/
theorem kept (started : 0 ≤ bin.blockIndex) : bin.Kept := by
  obtain ⟨isPrior, priorNonneg, priorSmall⟩ := bin.priorSnr_eq
  obtain ⟨isDivisor, divisorSmall⟩ := bin.divisor_eq
  obtain ⟨-, quotientNonneg, quotientSmall, -⟩ := bin.gain_eq
  have previous := bin.prevNearSnr_range
  have current := bin.curNearSnr_range
  have bound := bin.policy.denoiseRange
  have overdrive := bin.policy.overdriveRange
  exact
    { prevNearSnr := previous
      curNearSnr := current
      prevProduct := by
        dsimp only [satMax, ddPrSnrQ11] at *
        omega
      curProduct := by
        dsimp only [satMax, oneMinusDdPrSnrQ11] at *
        omega
      priorSnr := by
        rw [← isPrior]
        dsimp only [satMax] at *
        omega
      rounded := by
        dsimp only [satMax] at *
        omega
      divisor := by
        rw [uint32_of_bounds (by omega) (by dsimp only [satMax] at *; omega),
          Int.shiftRight_eq_div_pow, Nat.cast_pow, Nat.cast_ofNat,
          ← isDivisor]
        omega
      numerator := by
        dsimp only [satMax] at *
        omega
      quotient := by
        change bin.quotient < 2 ^ 16
        omega
      near := bin.gain_near
      startup := by
        intro startup
        obtain ⟨-, first, second, -, most⟩ :=
          bin.weightedGain_eq ⟨started, startup⟩
        dsimp only [endStartupShort] at *
        exact ⟨by omega, first, second, by omega⟩
      range := by
        unfold noiseSupFilter
        split
        next startup =>
            obtain ⟨isMean, -, -, least, most⟩ :=
              bin.weightedGain_eq ⟨started, startup⟩
            rw [isMean]
            dsimp only [endStartupShort] at *
            omega
        next =>
            exact bin.gain_range }

end GainBin

/-! ## Runs -/

/-- What `WebRtcNsx_ProcessCore` makes of a frame before its last loop, apart from what it
computes of the noise. -/
structure SuppressionFrame (band : Band) where
  analysis : AnalysisFrame band
  parametric : Nat → ParametricBin
  undefinedShift : Nat → UInt32

/-- What a `NoiseSuppressionFixedC` keeps for the filter. -/
structure SuppressionCore where
  policy : Policy
  domains : DomainCore
  prevMagn : List UInt16
  noiseSupFilter : List Int

/-- A call of the suppressor. -/
inductive SuppressionCall (band : Band) where
  | setPolicy (mode : Int)
  | processCore (frame : SuppressionFrame band)

namespace SuppressionCore

/-- The filter after `WebRtcNsx_InitCore`. -/
def initCore (band : Band) : SuppressionCore where
  policy := .mild
  domains := .initCore band
  prevMagn := List.replicate band.magnLen 0
  noiseSupFilter := List.replicate band.magnLen 16384

variable {band : Band}

/-- What the last loop reads of a bin. -/
def gainBin
    (inst : SuppressionCore)
    (frame : SuppressionFrame band)
    (i : Nat) : GainBin where
  policy := inst.policy
  blockIndex := inst.domains.blockIndex + 1
  magn := frame.analysis.magn.getD i 0
  noise := (inst.domains.nextNoise frame.analysis).getD i 0
  prevMagn := inst.prevMagn.getD i 0
  prevNoise := inst.domains.noise.prevNoise.getD i 0
  prevFilter := inst.noiseSupFilter.getD i 0
  prevShifts := 5 - inst.domains.prevQMagn + inst.domains.noise.prevQNoise
  nShifts := inst.domains.noise.prevQNoise + 11 - frame.analysis.qMagn
  undefinedShift := frame.undefinedShift i
  parametric := frame.parametric i

/-- The filter after a frame that is not all zero. -/
def nextFilter
    (inst : SuppressionCore)
    (frame : SuppressionFrame band) : List Int :=
  (List.range band.magnLen).map fun i => (inst.gainBin frame i).noiseSupFilter

/-- A frame; one that is all zero changes nothing. -/
def processCore
    (inst : SuppressionCore)
    (frame : SuppressionFrame band) : Option SuppressionCore :=
  if frame.analysis.maxWinData = 0 then some inst
  else do
    let domains ← inst.domains.processCore frame.analysis
    return { inst with
      domains
      prevMagn := frame.analysis.magn
      noiseSupFilter := inst.nextFilter frame }

/-- A call; one that returns -1 changes nothing. -/
def perform
    (inst : SuppressionCore) :
    SuppressionCall band → Option SuppressionCore
  | .setPolicy mode =>
      some { inst with policy := (setPolicyCore mode).getD inst.policy }
  | .processCore frame => inst.processCore frame

/-- What a frame must do: every turn wraps nothing and is near the exact gain, and the
filter is between the bound of the policy and one. -/
structure FrameKept
    (inst : SuppressionCore)
    (frame : SuppressionFrame band) : Prop where
  bins : ∀ i < band.magnLen, (inst.gainBin frame i).Kept
  filter :
    ∃ next,
      inst.processCore frame = some next ∧
        next.noiseSupFilter.length = band.magnLen ∧
          ∀ gain ∈ next.noiseSupFilter,
            next.policy.denoiseBound ≤ gain ∧ gain ≤ 16384

/-- What a call must do. -/
def CallKept
    (inst : SuppressionCore) :
    SuppressionCall band → Prop
  | .setPolicy _ => True
  | .processCore frame =>
      frame.analysis.maxWinData ≠ 0 → inst.FrameKept frame

variable {inst next : SuppressionCore}

/-- What a frame that is not all zero leaves. -/
theorem processCore_present
    (inst : SuppressionCore)
    {frame : SuppressionFrame band}
    (present : frame.analysis.maxWinData ≠ 0) :
    ∃ domains,
      inst.processCore frame =
          some
            { inst with
              domains
              prevMagn := frame.analysis.magn
              noiseSupFilter := inst.nextFilter frame } ∧
        domains.blockIndex = inst.domains.blockIndex + 1 := by
  unfold processCore DomainCore.processCore
  rw [if_neg present, if_neg present]
  exact ⟨_, rfl, rfl⟩

/-- A frame always returns. -/
theorem processCore_returns
    (inst : SuppressionCore)
    (frame : SuppressionFrame band) :
    ∃ next, inst.processCore frame = some next := by
  by_cases silent : frame.analysis.maxWinData = 0
  · exact ⟨inst, if_pos silent⟩
  · obtain ⟨domains, isNext, -⟩ :=
      processCore_present inst silent
    exact ⟨_, isNext⟩

/-- The suppressor has not gone back before its first block. -/
def Started (inst : SuppressionCore) : Prop :=
  -1 ≤ inst.domains.blockIndex

theorem Started.perform
    (started : inst.Started)
    {call : SuppressionCall band}
    (taken : inst.perform call = some next) :
    next.Started := by
  cases call with
  | setPolicy mode =>
      obtain rfl := Option.some.inj taken
      exact started
  | processCore frame =>
      change inst.processCore frame = some next at taken
      by_cases silent : frame.analysis.maxWinData = 0
      · rw [processCore, if_pos silent] at taken
        obtain rfl := Option.some.inj taken
        exact started
      · obtain ⟨domains, isNext, block⟩ :=
          processCore_present inst silent
        rw [isNext] at taken
        obtain rfl := Option.some.inj taken
        unfold Started at *
        dsimp only
        omega

theorem Started.frameKept
    (started : inst.Started)
    {frame : SuppressionFrame band}
    (present : frame.analysis.maxWinData ≠ 0) :
    inst.FrameKept frame := by
  have bins (i : Nat) : (inst.gainBin frame i).Kept := by
    apply GainBin.kept
    unfold Started at started
    dsimp only [gainBin]
    omega
  obtain ⟨domains, isNext, -⟩ :=
    processCore_present inst present
  refine ⟨fun i _ => bins i, _, isNext, ?_, ?_⟩
  · simp [nextFilter]
  · intro gain member
    obtain ⟨i, -, rfl⟩ := List.mem_map.mp member
    exact (bins i).range

/-- In every run of frames and policies, from `WebRtcNsx_InitCore`, every frame that is not
all zero does what it must. -/
theorem filter_kept
    (band : Band)
    (calls : List (SuppressionCall band)) :
    AlongRun perform CallKept (initCore band) calls := by
  refine AlongRun.of_invariant Started ?_ ?_ ?_ calls
  · intro inst call next started taken
    exact started.perform taken
  · intro inst call started
    cases call with
    | setPolicy mode =>
        exact trivial
    | processCore frame =>
        exact started.frameKept
  · exact le_refl (-1 : Int)

end SuppressionCore

end ApmSdk.Nsx
