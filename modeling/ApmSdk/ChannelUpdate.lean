import ApmSdk.GainTable
import ApmSdk.WienerGain
import Mathlib.Data.Rat.Floor

namespace ApmSdk.Aecm

/-!
# The update of the echo channel

`WebRtcAecm_UpdateChannel` compares the near end with the echo that the channel predicts,
both in a domain in which they fit, and moves the channel by a step of that error.
-/

/-- `RESOLUTION_CHANNEL32` -/
abbrev resolutionChannel32 : Int := 28

/-- `CHANNEL_VAD` -/
abbrev channelVad : Int := 16

/-- `WEBRTC_SPL_WORD32_MAX` -/
abbrev word32Max : Int := 0x7FFFFFFF

/-- `WebRtcSpl_AddSatW32` -/
def addSatW32 (first second : Int) : Int :=
  let sum := int32 (first + second)
  if first < 0 then
    if second < 0 ∧ 0 ≤ sum then -0x80000000 else sum
  else if 0 < second ∧ sum < 0 then word32Max
  else sum

/-- What the update of a bin reads: the channel, the magnitudes of the far and the near end
and their domains, the step size, and which bin it is. -/
structure ChannelBin where
  channelAdapt32 : Int
  farSpectrum : Int
  dfa : Int
  farQ : Nat
  dfaNoisyQDomain : Nat
  mu : Nat
  index : Nat
  channel : 0 ≤ channelAdapt32 ∧ channelAdapt32 < 2 ^ 31
  far : 0 ≤ farSpectrum ∧ farSpectrum < 2 ^ 16
  near : 0 ≤ dfa ∧ dfa < 2 ^ 16
  domains : farQ ≤ 15 ∧ dfaNoisyQDomain ≤ 15
  step : mu ≤ 32600
  isBin : index < partLen1

namespace ChannelBin

/-- `zerosCh` -/
def zerosCh (bin : ChannelBin) : Nat :=
  Agc.normU32 bin.channelAdapt32

/-- `zerosFar` -/
def zerosFar (bin : ChannelBin) : Nat :=
  Agc.normU32 bin.farSpectrum

/-- `shiftChFar` -/
def shiftChFar (bin : ChannelBin) : Nat :=
  if 31 < bin.zerosCh + bin.zerosFar then 0
  else 32 - bin.zerosCh - bin.zerosFar

/-- The first value of `tmpU32no1`: the predicted echo, as far as it fits `uint32_t`. -/
def predictedEcho (bin : ChannelBin) : Int :=
  if 31 < bin.zerosCh + bin.zerosFar then
    uint32 (uint32 bin.channelAdapt32 * uint16 bin.farSpectrum)
  else
    -- a product of `int`, which the conversion to `uint32_t` restores
    uint32 (int32 (bin.channelAdapt32 >>> bin.shiftChFar * bin.farSpectrum))

/-- The first value of `zerosNum` -/
def zerosEcho (bin : ChannelBin) : Nat :=
  Agc.normU32 bin.predictedEcho

/-- `zerosDfa` -/
def zerosDfa (bin : ChannelBin) : Nat :=
  if bin.dfa ≠ 0 then Agc.normU32 bin.dfa else 32

/-- `tmp16no1` -/
def tmp16no1 (bin : ChannelBin) : Int :=
  bin.zerosDfa - 2 + bin.dfaNoisyQDomain - resolutionChannel32 - bin.farQ +
    bin.shiftChFar

/-- `xfaQ` and `dfaQ` -/
def commonShifts (bin : ChannelBin) : Int × Int :=
  if bin.tmp16no1 + 1 < bin.zerosEcho then
    (bin.tmp16no1, bin.zerosDfa - 2)
  else
    let xfaQ : Int := bin.zerosEcho - 2
    (xfaQ,
      resolutionChannel32 + bin.farQ - bin.dfaNoisyQDomain - bin.shiftChFar +
        xfaQ)

/-- The echo in the common domain. -/
def echo (bin : ChannelBin) : Int :=
  shiftU32 bin.predictedEcho bin.commonShifts.1

/-- The near end in the common domain. -/
def nearEnd (bin : ChannelBin) : Int :=
  shiftU32 bin.dfa bin.commonShifts.2

/-- The first value of `tmp32no1`: the error. -/
def error (bin : ChannelBin) : Int :=
  int32 (int32 bin.nearEnd - int32 bin.echo)

/-- The second value of `zerosNum` -/
def zerosNum (bin : ChannelBin) : Nat :=
  normW32 bin.error

/-- `shiftNum` -/
def shiftNum (bin : ChannelBin) : Nat :=
  if 31 < bin.zerosNum + bin.zerosFar then 0
  else 32 - (bin.zerosNum + bin.zerosFar)

/-- The product of a positive error and the far end. -/
def errorTimesFar (bin : ChannelBin) (magnitude : Int) : Int :=
  if 31 < bin.zerosNum + bin.zerosFar then
    int32 (uint32 (magnitude * bin.farSpectrum))
  else int32 (magnitude >>> bin.shiftNum * bin.farSpectrum)

/-- `tmp32no2`, normalised with respect to the bin. -/
def numerator (bin : ChannelBin) : Int :=
  divW32W16
    (if 0 < bin.error then bin.errorTimesFar bin.error
      else -bin.errorTimesFar (-bin.error))
    (bin.index + 1)

/-- `shift2ResChan` -/
def shift2ResChan (bin : ChannelBin) : Int :=
  int16
    (bin.shiftNum + bin.shiftChFar - bin.commonShifts.1 - bin.mu -
      (30 - bin.zerosFar) * 2)

/-- The last value of `tmp32no2`: the step. -/
def channelStep (bin : ChannelBin) : Int :=
  if normW32 bin.numerator < bin.shift2ResChan then word32Max
  else Agc.shiftW32 bin.numerator bin.shift2ResChan

/-- The update of `channelAdapt32` in `WebRtcAecm_UpdateChannel`. -/
def updateChannel (bin : ChannelBin) : Int :=
  if bin.mu ≠ 0 ∧ bin.error ≠ 0 ∧
      channelVad * 2 ^ bin.farQ < bin.farSpectrum then
    let channelAdapt32 := addSatW32 bin.channelAdapt32 bin.channelStep
    if channelAdapt32 < 0 then 0 else channelAdapt32
  else bin.channelAdapt32

/-! ## The exact error -/

/-- The near end, and the echo of a channel, in one domain and at any size. -/
def exactNear (bin : ChannelBin) : Int :=
  bin.dfa * 2 ^ (28 + bin.farQ)

def exactEcho (bin : ChannelBin) (channel : Int) : Int :=
  channel * bin.farSpectrum * 2 ^ bin.dfaNoisyQDomain

/-- The channel without the bits that are cut off before the product. -/
def cutChannel (bin : ChannelBin) : Int :=
  bin.channelAdapt32 >>> bin.shiftChFar * 2 ^ bin.shiftChFar

/-- The last shift keeps the step in `int32_t`. -/
def StepFits (bin : ChannelBin) : Prop :=
  bin.shift2ResChan ≤ normW32 bin.numerator

instance (bin : ChannelBin) : Decidable bin.StepFits :=
  inferInstanceAs (Decidable (_ ≤ _))

end ChannelBin

/-! ## The common domain -/

/-- A value moved between domains, at any size. -/
def shifted (value q : Int) : Int :=
  if 0 ≤ q then value * 2 ^ q.toNat else value / 2 ^ (-q).toNat

/-- A value moved down is rounded down. -/
theorem shifted_eq_floor (value q : Int) :
    shifted value q = ⌊(value : ℚ) * 2 ^ q⌋ := by
  unfold shifted
  split
  next upward =>
      obtain ⟨shift, rfl⟩ := Int.eq_ofNat_of_zero_le upward
      have whole :
          (value : ℚ) * 2 ^ (shift : Int) =
            ((value * 2 ^ shift : Int) : ℚ) := by
        rw [zpow_natCast]
        push_cast
        rfl
      rw [whole, Int.floor_intCast, Int.toNat_natCast]
  next downward =>
      obtain ⟨shift, isShift⟩ :=
        Int.eq_ofNat_of_zero_le (show 0 ≤ -q by omega)
      have quotient :
          (value : ℚ) * 2 ^ q = value / ((2 ^ shift : Nat) : ℚ) := by
        rw [show q = -(shift : Int) by omega, zpow_neg, zpow_natCast,
          ← div_eq_mul_inv]
        push_cast
        rfl
      rw [quotient, Rat.floor_intCast_div_natCast, isShift,
        Int.toNat_natCast]
      push_cast
      rfl

/-- Values that are compared in one domain are in the same order in another. -/
theorem shifted_le_shifted
    {first second : Int}
    {firstBits secondBits : Nat}
    {firstShift secondShift : Int}
    (ordered : first * 2 ^ firstBits ≤ second * 2 ^ secondBits)
    (oneDomain : firstShift - firstBits = secondShift - secondBits) :
    shifted first firstShift ≤ shifted second secondShift := by
  have unit : (0 : ℚ) < 2 ^ (firstShift - firstBits) := by
    positivity
  have orderedRat :
      (first * 2 ^ firstBits : ℚ) ≤ second * 2 ^ secondBits := by
    exact_mod_cast ordered
  have move (bits : Nat) (shift : Int) :
      (2 : ℚ) ^ shift = 2 ^ bits * 2 ^ (shift - bits) := by
    rw [← zpow_natCast, ← zpow_add₀ (by norm_num)]
    congr 1
    omega
  rw [shifted_eq_floor, shifted_eq_floor]
  refine Int.floor_mono ?_
  rw [move firstBits firstShift, move secondBits secondShift, ← oneDomain,
    ← mul_assoc, ← mul_assoc]
  exact mul_le_mul_of_nonneg_right orderedRat unit.le

/-- A shift that leaves two of the leading zeros gives a word of 30 bits. -/
theorem shiftU32_fits
    {value q : Int}
    (range : 0 ≤ value ∧ value < 2 ^ 32)
    (headroom : value ≠ 0 → q ≤ Agc.normU32 value - 2) :
    shiftU32 value q = shifted value q ∧
      0 ≤ shifted value q ∧ shifted value q < 2 ^ 30 := by
  have normalised := normU32_fits range
  rcases range.1.eq_or_lt with isZero | positive
  · rw [← isZero]
    unfold shiftU32 shifted uint32
    split <;> simp
  · have zeros := headroom positive.ne'
    unfold shiftU32 shifted
    split
    next upward =>
        obtain ⟨shift, rfl⟩ := Int.eq_ofNat_of_zero_le upward
        have larger :
            value * 2 ^ (shift + 2) ≤ value * 2 ^ Agc.normU32 value :=
          mul_le_mul_of_nonneg_left
            (pow_le_pow_right₀ (by decide) (by omega)) range.1
        have nonneg : 0 ≤ value * 2 ^ shift := by
          positivity
        rw [pow_add, ← mul_assoc] at larger
        rw [Int.toNat_natCast]
        exact
          ⟨Int.emod_eq_of_lt nonneg (by omega), nonneg, by omega⟩
    next downward =>
        have larger :
            value * 2 ^ 2 ≤
              value * 2 ^ (Agc.normU32 value + (-q).toNat) :=
          mul_le_mul_of_nonneg_left
            (pow_le_pow_right₀ (by decide) (by omega)) range.1
        have positiveShift : (0 : Int) < 2 ^ (-q).toNat := by
          positivity
        have bound :
            value * 2 ^ Agc.normU32 value * 2 ^ (-q).toNat <
              2 ^ 32 * 2 ^ (-q).toNat :=
          mul_lt_mul_of_pos_right normalised positiveShift
        rw [pow_add, ← mul_assoc] at larger
        rw [Int.shiftRight_eq_div_pow, Nat.cast_pow, Nat.cast_ofNat]
        refine ⟨rfl, by positivity, ?_⟩
        exact Int.ediv_lt_of_lt_mul positiveShift (by omega)

namespace ChannelBin

variable (bin : ChannelBin)

/-- The product of the far end and the channel, with the bits of the channel that fit, has
32 bits. -/
theorem predictedEcho_eq :
    bin.predictedEcho =
        bin.channelAdapt32 >>> bin.shiftChFar * bin.farSpectrum ∧
      0 ≤ bin.predictedEcho ∧ bin.predictedEcho < 2 ^ 32 := by
  have channel := bin.channel
  have far := bin.far
  have wide :=
    normU32_fits (show 0 ≤ bin.channelAdapt32 ∧ _ by omega)
  have narrow :=
    normU32_fits (show 0 ≤ bin.farSpectrum ∧ _ by omega)
  have cut := shiftRight_cut bin.channelAdapt32 bin.shiftChFar
  have part := shiftRight_bounds channel.1 bin.shiftChFar
  have isCut :
      bin.channelAdapt32 >>> bin.shiftChFar * bin.farSpectrum *
          2 ^ bin.shiftChFar ≤
        bin.channelAdapt32 * bin.farSpectrum := by
    rw [mul_right_comm]
    exact mul_le_mul_of_nonneg_right cut.1 far.1
  have fits :
      bin.channelAdapt32 >>> bin.shiftChFar * bin.farSpectrum < 2 ^ 32 :=
    product_fits far.1 wide.le narrow
      (by
        unfold shiftChFar zerosCh zerosFar
        split <;> omega)
      isCut
  have nonneg := mul_nonneg part.1 far.1
  have product :
      bin.predictedEcho =
        bin.channelAdapt32 >>> bin.shiftChFar * bin.farSpectrum := by
    unfold predictedEcho
    split
    next safe =>
        have uncut : bin.shiftChFar = 0 := if_pos safe
        rw [uncut, Int.shiftRight_zero] at fits nonneg ⊢
        have channelWord : uint32 bin.channelAdapt32 = bin.channelAdapt32 :=
          Int.emod_eq_of_lt channel.1 (by omega)
        rw [channelWord, uint16_of_bounds far.1 far.2]
        exact Int.emod_eq_of_lt nonneg fits
    next =>
        unfold uint32 int32
        rw [Int.bmod_def]
        omega
  rw [product]
  exact ⟨rfl, nonneg, fits⟩

/-- The two shifts lead to one domain. -/
theorem commonShifts_domain :
    bin.commonShifts.1 -
        ((bin.shiftChFar + bin.dfaNoisyQDomain : Nat) : Int) =
      bin.commonShifts.2 - ((28 + bin.farQ : Nat) : Int) := by
  unfold commonShifts tmp16no1 resolutionChannel32
  split <;> dsimp only <;> omega

/-- The echo fits in the common domain. -/
theorem echo_eq :
    bin.echo = shifted bin.predictedEcho bin.commonShifts.1 ∧
      0 ≤ bin.echo ∧ bin.echo < 2 ^ 30 := by
  have fits :=
    shiftU32_fits bin.predictedEcho_eq.2
      (show _ → bin.commonShifts.1 ≤ _ by
        intro _
        unfold commonShifts zerosEcho
        split <;> dsimp only <;> omega)
  rw [echo, fits.1]
  exact ⟨rfl, fits.2⟩

/-- So does the near end. -/
theorem nearEnd_eq :
    bin.nearEnd = shifted bin.dfa bin.commonShifts.2 ∧
      0 ≤ bin.nearEnd ∧ bin.nearEnd < 2 ^ 30 := by
  have near := bin.near
  have fits :=
    shiftU32_fits (show 0 ≤ bin.dfa ∧ _ by omega)
      (show _ → bin.commonShifts.2 ≤ _ by
        intro nonzero
        unfold commonShifts tmp16no1 zerosDfa resolutionChannel32
        rw [if_pos nonzero]
        split <;> dsimp only <;> omega)
  rw [nearEnd, fits.1]
  exact ⟨rfl, fits.2⟩

/-- The error is the difference of the two. -/
theorem error_eq : bin.error = bin.nearEnd - bin.echo := by
  have near := bin.nearEnd_eq.2
  have echo := bin.echo_eq.2
  have nearWord : int32 bin.nearEnd = bin.nearEnd :=
    int32_of_bounds (by omega) (by omega)
  have echoWord : int32 bin.echo = bin.echo :=
    int32_of_bounds (by omega) (by omega)
  unfold error
  rw [nearWord, echoWord, int32_of_bounds (by omega) (by omega)]

/-- The echo of the cut channel, in the domain of the product. -/
theorem exactEcho_cutChannel :
    bin.exactEcho bin.cutChannel =
      bin.predictedEcho * 2 ^ (bin.shiftChFar + bin.dfaNoisyQDomain) := by
  rw [exactEcho, cutChannel, bin.predictedEcho_eq.1, pow_add]
  ring

/-- A near end below the echo of the cut channel is no greater in the common domain. -/
theorem error_nonpos
    (louder : bin.exactNear ≤ bin.exactEcho bin.cutChannel) :
    bin.error ≤ 0 := by
  rw [exactEcho_cutChannel] at louder
  have ordered := shifted_le_shifted louder bin.commonShifts_domain.symm
  rw [bin.error_eq, bin.nearEnd_eq.1, bin.echo_eq.1]
  omega

/-- A near end above the echo of the channel is no smaller. -/
theorem error_nonneg
    (quieter : bin.exactEcho bin.channelAdapt32 < bin.exactNear) :
    0 ≤ bin.error := by
  have cut :
      bin.exactEcho bin.cutChannel ≤ bin.exactEcho bin.channelAdapt32 := by
    unfold exactEcho cutChannel
    exact
      mul_le_mul_of_nonneg_right
        (mul_le_mul_of_nonneg_right
          (shiftRight_cut bin.channelAdapt32 bin.shiftChFar).1 bin.far.1)
        (by positivity)
  rw [exactEcho_cutChannel] at cut
  have ordered :=
    shifted_le_shifted (cut.trans quieter.le) bin.commonShifts_domain
  rw [bin.error_eq, bin.nearEnd_eq.1, bin.echo_eq.1]
  omega

end ChannelBin

/-! ## The step -/

namespace ChannelBin

variable (bin : ChannelBin)

/-- The product of the error and the far end has 31 bits. -/
theorem errorTimesFar_bounds
    {magnitude : Int}
    (nonneg : 0 ≤ magnitude)
    (fits : magnitude * 2 ^ bin.zerosNum ≤ 2 ^ 31) :
    0 ≤ bin.errorTimesFar magnitude ∧
      bin.errorTimesFar magnitude < 2 ^ 31 := by
  have far := bin.far
  have narrow :=
    normU32_fits (show 0 ≤ bin.farSpectrum ∧ _ by omega)
  have part := (shiftRight_bounds nonneg bin.shiftNum).1
  have isCut :
      magnitude >>> bin.shiftNum * bin.farSpectrum * 2 ^ bin.shiftNum ≤
        magnitude * bin.farSpectrum := by
    rw [mul_right_comm]
    exact
      mul_le_mul_of_nonneg_right (shiftRight_cut magnitude bin.shiftNum).1
        far.1
  have below : magnitude >>> bin.shiftNum * bin.farSpectrum < 2 ^ 31 :=
    product_fits far.1 fits narrow
      (by
        unfold shiftNum zerosFar
        split <;> omega)
      isCut
  have product := mul_nonneg part far.1
  have exact :
      bin.errorTimesFar magnitude =
        magnitude >>> bin.shiftNum * bin.farSpectrum := by
    unfold errorTimesFar
    split
    next safe =>
        have uncut : bin.shiftNum = 0 := if_pos safe
        rw [uncut, Int.shiftRight_zero] at below product ⊢
        have word :
            uint32 (magnitude * bin.farSpectrum) =
              magnitude * bin.farSpectrum :=
          Int.emod_eq_of_lt product (by omega)
        rw [word, int32_of_bounds (by omega) below]
    next =>
        exact int32_of_bounds (by omega) below
  rw [exact]
  exact ⟨product, below⟩

/-- A positive error has a numerator that is not negative. -/
theorem numerator_nonneg
    (positive : 0 < bin.error) :
    0 ≤ bin.numerator ∧ bin.numerator < 2 ^ 31 := by
  have near := bin.nearEnd_eq.2
  have echo := bin.echo_eq.2
  have isError := bin.error_eq
  have fits := normW32_fits (show 0 ≤ bin.error ∧ _ by omega)
  obtain ⟨lower, upper⟩ := bin.errorTimesFar_bounds positive.le fits.le
  unfold numerator divW32W16
  rw [if_pos positive, if_pos (by omega)]
  exact
    ⟨Int.tdiv_nonneg lower (by omega),
      (Int.tdiv_le_self _ lower).trans_lt upper⟩

/-- A negative error has one that is not positive. -/
theorem numerator_nonpos
    (negative : bin.error < 0) :
    -(2 ^ 31) < bin.numerator ∧ bin.numerator ≤ 0 := by
  have near := bin.nearEnd_eq.2
  have echo := bin.echo_eq.2
  have isError := bin.error_eq
  have fits := normW32_fits_neg (show 0 ≤ -bin.error ∧ _ by omega)
  rw [neg_neg] at fits
  obtain ⟨lower, upper⟩ := bin.errorTimesFar_bounds (by omega) fits
  have quotient :=
    Int.tdiv_nonneg lower (show 0 ≤ (bin.index : Int) + 1 by omega)
  have small := Int.tdiv_le_self ((bin.index : Int) + 1) lower
  unfold numerator divW32W16
  rw [if_pos (by omega), if_neg (not_lt.mpr negative.le), Int.neg_tdiv]
  omega

/-- A positive error never steps down. -/
theorem channelStep_nonneg
    (positive : 0 < bin.error) :
    0 ≤ bin.channelStep ∧ bin.channelStep < 2 ^ 31 := by
  have range := bin.numerator_nonneg positive
  have normalised := normW32_fits range
  unfold channelStep
  split
  next =>
      decide
  next fits =>
      unfold Agc.shiftW32
      split
      next upward =>
          have larger :
              bin.numerator * 2 ^ bin.shift2ResChan.toNat ≤
                bin.numerator * 2 ^ normW32 bin.numerator :=
            mul_le_mul_of_nonneg_left
              (pow_le_pow_right₀ (by decide) (by omega)) range.1
          have nonneg :
              0 ≤ bin.numerator * 2 ^ bin.shift2ResChan.toNat :=
            mul_nonneg range.1 (by positivity)
          rw [int32_of_bounds (by omega) (by omega)]
          omega
      next =>
          have part :=
            shiftRight_bounds range.1 (-bin.shift2ResChan).toNat
          omega

/-- A negative error never steps up, where the last shift fits. -/
theorem channelStep_nonpos
    (negative : bin.error < 0)
    (fits : bin.StepFits) :
    -(2 ^ 31) ≤ bin.channelStep ∧ bin.channelStep ≤ 0 := by
  have range := bin.numerator_nonpos negative
  have normalised :=
    normW32_fits_neg (show 0 ≤ -bin.numerator ∧ _ by omega)
  rw [neg_neg] at normalised
  unfold StepFits at fits
  unfold channelStep
  rw [if_neg (by omega)]
  unfold Agc.shiftW32
  split
  next upward =>
      have larger :
          -bin.numerator * 2 ^ bin.shift2ResChan.toNat ≤
            -bin.numerator * 2 ^ normW32 bin.numerator :=
        mul_le_mul_of_nonneg_left
          (pow_le_pow_right₀ (by decide) (by omega)) (by omega)
      have nonneg :
          0 ≤ -bin.numerator * 2 ^ bin.shift2ResChan.toNat :=
        mul_nonneg (by omega) (by positivity)
      rw [neg_mul] at larger nonneg
      rw [int32_of_bounds (by omega) (by omega)]
      omega
  next =>
      have positive : (0 : Int) < 2 ^ (-bin.shift2ResChan).toNat := by
        positivity
      have upper := Int.ediv_le_ediv positive range.2
      have lower : bin.numerator ≤ bin.numerator / 2 ^ _ :=
        Int.le_ediv_of_mul_le positive
          (mul_le_of_one_le_right range.2 positive)
      rw [Int.zero_ediv] at upper
      rw [Int.shiftRight_eq_div_pow, Nat.cast_pow, Nat.cast_ofNat]
      omega

/-! ## The channel -/

/-- A sum that saturates keeps the sign of what is added. -/
theorem addSatW32_of_nonneg
    {first second : Int}
    (range : 0 ≤ first ∧ first < 2 ^ 31)
    (added : 0 ≤ second ∧ second < 2 ^ 31) :
    first ≤ addSatW32 first second := by
  unfold addSatW32 int32
  rw [if_neg (by omega), Int.bmod_def]
  dsimp only [word32Max]
  split_ifs <;> omega

theorem addSatW32_of_nonpos
    {first second : Int}
    (range : 0 ≤ first ∧ first < 2 ^ 31)
    (added : -(2 ^ 31) ≤ second ∧ second ≤ 0) :
    addSatW32 first second ≤ first := by
  unfold addSatW32
  rw [if_neg (by omega), if_neg (by omega),
    int32_of_bounds (by omega) (by omega)]
  omega

theorem addSatW32_lt (first second : Int) :
    addSatW32 first second < 2 ^ 31 := by
  unfold addSatW32 int32
  rw [Int.bmod_def]
  dsimp only [word32Max]
  split_ifs <;> omega

/-- The channel never becomes negative. -/
theorem updateChannel_bounds :
    0 ≤ bin.updateChannel ∧ bin.updateChannel < 2 ^ 31 := by
  have below := addSatW32_lt bin.channelAdapt32 bin.channelStep
  unfold updateChannel
  split
  next =>
      dsimp only
      split <;> omega
  next =>
      exact bin.channel

/-- The channel never moves down when the echo is smaller than the near end. -/
theorem le_updateChannel
    (quieter : bin.exactEcho bin.channelAdapt32 < bin.exactNear) :
    bin.channelAdapt32 ≤ bin.updateChannel := by
  have nonneg := bin.error_nonneg quieter
  unfold updateChannel
  split
  next updated =>
      have step := bin.channelStep_nonneg (lt_of_le_of_ne nonneg updated.2.1.symm)
      have moved := addSatW32_of_nonneg bin.channel step
      dsimp only
      split <;> omega
  next =>
      exact le_rfl

/-- The channel never moves up when the echo of the cut channel is at least the near end,
where the last shift fits. -/
theorem updateChannel_le
    (louder : bin.exactNear ≤ bin.exactEcho bin.cutChannel)
    (fits : bin.StepFits) :
    bin.updateChannel ≤ bin.channelAdapt32 := by
  have channel := bin.channel
  have nonpos := bin.error_nonpos louder
  unfold updateChannel
  split
  next updated =>
      have step :=
        bin.channelStep_nonpos (lt_of_le_of_ne nonpos updated.2.1) fits
      have moved := addSatW32_of_nonpos channel step
      dsimp only
      split <;> omega
  next =>
      exact le_rfl

/--
The near end and the echo of the channel come to one domain in 30 bits, rounded down.  The
channel stays in [0, 2^31), never moves down when the predicted echo is smaller than the
near end, and never up when the echo of the channel without the bits that are cut is at
least the near end, where the last shift fits.
-/
theorem updateChannel_followsError (bin : ChannelBin) :
    ((bin.nearEnd = shifted bin.dfa bin.commonShifts.2 ∧
          0 ≤ bin.nearEnd ∧ bin.nearEnd < 2 ^ 30) ∧
        (bin.echo =
            shifted
              (bin.channelAdapt32 >>> bin.shiftChFar * bin.farSpectrum)
              bin.commonShifts.1 ∧
          0 ≤ bin.echo ∧ bin.echo < 2 ^ 30) ∧
        bin.commonShifts.1 -
            ((bin.shiftChFar + bin.dfaNoisyQDomain : Nat) : Int) =
          bin.commonShifts.2 - ((28 + bin.farQ : Nat) : Int)) ∧
      (bin.exactEcho bin.channelAdapt32 < bin.exactNear →
        bin.channelAdapt32 ≤ bin.updateChannel) ∧
      (bin.exactNear ≤ bin.exactEcho bin.cutChannel ∧ bin.StepFits →
        bin.updateChannel ≤ bin.channelAdapt32) ∧
      0 ≤ bin.updateChannel ∧ bin.updateChannel < 2 ^ 31 := by
  have echo := bin.echo_eq
  rw [bin.predictedEcho_eq.1] at echo
  exact
    ⟨⟨bin.nearEnd_eq, echo, bin.commonShifts_domain⟩, bin.le_updateChannel,
      fun ⟨louder, fits⟩ => bin.updateChannel_le louder fits,
      bin.updateChannel_bounds⟩

/-- A channel with 15 bits that are cut before the product. -/
def wideChannel : ChannelBin where
  channelAdapt32 := 2 ^ 31 - 32769
  farSpectrum := 40000
  dfa := 39999
  farQ := 3
  dfaNoisyQDomain := 0
  mu := 1
  index := 0
  channel := by decide
  far := by decide
  near := by decide
  domains := by decide
  step := by decide
  isBin := by decide

/-- For a near end of 39000 the channel moves down. -/
theorem updateChannel_quieterNear :
    { wideChannel with dfa := 39000, near := by decide }.updateChannel ≤
      2 ^ 31 - 32769 :=
  (updateChannel_followsError
      { wideChannel with dfa := 39000, near := by decide }).2.2.1
    (by decide +kernel)

/-- The predicted echo exceeds the near end of 39999 by less than what is cut, and the
channel moves up. -/
theorem not_updateChannel_le_wideChannel :
    ¬ ∀ bin : ChannelBin,
        bin.exactNear < bin.exactEcho bin.channelAdapt32 →
          bin.updateChannel ≤ bin.channelAdapt32 := by
  intro claimed
  exact absurd (claimed wideChannel (by decide)) (by decide +kernel)

end ChannelBin

end ApmSdk.Aecm
