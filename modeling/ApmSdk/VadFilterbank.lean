import ApmSdk.CheckedComputation
import ApmSdk.NarrowbandResampler
import ApmSdk.SignalEnergy

namespace ApmSdk.Vad

open Resample48khz (evens odds)

/-!
# The filter bank of the voice detector

A frame at 8 kHz is split into bands five times, and the lowest band passes a high-pass filter.
The energies of the six bands are the features.  The filters are written for any arithmetic
that keeps values in range: that of the code wraps, the exact one has no value instead.
-/

/-- What becomes of the results of 32 bits, and of those stored in 16 bits. -/
structure Arithmetic where
  word32 : Int → Option Int
  word16 : Int → Option Int
  keeps32 : ∀ value : Int, -2 ^ 31 ≤ value → value < 2 ^ 31 → word32 value = some value
  keeps16 : ∀ value : Int, -2 ^ 15 ≤ value → value < 2 ^ 15 → word16 value = some value

/-- The arithmetic of the code. -/
def wrapping : Arithmetic where
  word32 value := some (int32 value)
  word16 value := some (int16 value)
  keeps32 _ lower upper := congrArg some (int32_of_bounds lower upper)
  keeps16 _ lower upper := congrArg some (int16_of_bounds lower upper)

/-- Nothing may wrap. -/
def exact : Arithmetic where
  word32 := checked int32
  word16 := checked int16
  keeps32 _ lower upper := if_pos (int32_of_bounds lower upper)
  keeps16 _ lower upper := if_pos (int16_of_bounds lower upper)

/-- `kAllPassCoefsQ15[0]` -/
def upperCoefficient : Int :=
  20972

/-- `kAllPassCoefsQ15[1]` -/
def lowerCoefficient : Int :=
  5571

section Filters

variable (arithmetic : Arithmetic)

/-- The loop of `AllPassFilter`: the outputs and `state32` behind them. -/
def allPassLoop (filterCoefficient : Int) :
    (state32 : Int) → List Int → Option (List Int × Int)
  | state32, [] => some ([], state32)
  | state32, sample :: rest => do
      let tmp32 ← arithmetic.word32 (state32 + filterCoefficient * sample)
      let tmp16 ← arithmetic.word16 (tmp32 >>> (16 : Nat))
      let difference ← arithmetic.word32 (sample * 2 ^ 14 - filterCoefficient * tmp16)
      let next ← arithmetic.word32 (difference * 2)
      let (dataOut, last) ← allPassLoop filterCoefficient next rest
      return (tmp16 :: dataOut, last)

/-- `AllPassFilter` on the samples that it reads, every other one of its input: the outputs and
`filter_state` behind them. -/
def allPassFilter
    (filterCoefficient filterState : Int)
    (samples : List Int) : Option (List Int × Int) := do
  let (dataOut, state32) ←
    allPassLoop arithmetic filterCoefficient (filterState * 2 ^ 16) samples
  let filterState ← arithmetic.word16 (state32 >>> (16 : Nat))
  return (dataOut, filterState)

/-- An entry of `upper_state` and of `lower_state`. -/
structure SplitState where
  upper : Int
  lower : Int
deriving Repr, DecidableEq

/-- What `SplitFilter` gives. -/
structure SplitOutput where
  hpData : List Int
  lpData : List Int
  state : SplitState
deriving Repr, DecidableEq

/-- `SplitFilter` -/
def splitFilter
    (dataIn : List Int)
    (state : SplitState) : Option SplitOutput := do
  let (upper, upperState) ←
    allPassFilter arithmetic upperCoefficient state.upper (evens dataIn)
  let (lower, lowerState) ←
    allPassFilter arithmetic lowerCoefficient state.lower (odds dataIn)
  let hpData ← (upper.zip lower).mapM fun pair => arithmetic.word16 (pair.1 - pair.2)
  let lpData ← (upper.zip lower).mapM fun pair => arithmetic.word16 (pair.2 + pair.1)
  return ⟨hpData, lpData, ⟨upperState, lowerState⟩⟩

/-- `hp_filter_state` -/
structure HpState where
  state0 : Int
  state1 : Int
  state2 : Int
  state3 : Int
deriving Repr, DecidableEq

/-- `HighPassFilter`, with `kHpZeroCoefs` and `kHpPoleCoefs`. -/
def highPassFilter : List Int → HpState → Option (List Int × HpState)
  | [], state => some ([], state)
  | sample :: rest, state => do
      let tmp32 ← arithmetic.word32 (6631 * sample)
      let tmp32 ← arithmetic.word32 (tmp32 + -13262 * state.state0)
      let tmp32 ← arithmetic.word32 (tmp32 + 6631 * state.state1)
      let tmp32 ← arithmetic.word32 (tmp32 - -7756 * state.state2)
      let tmp32 ← arithmetic.word32 (tmp32 - 5620 * state.state3)
      let out ← arithmetic.word16 (tmp32 >>> (14 : Nat))
      let (dataOut, last) ← highPassFilter rest ⟨sample, state.state0, out, state.state2⟩
      return (out :: dataOut, last)

end Filters

/-- The filter states of the instance. -/
structure FilterbankInst where
  split0 : SplitState
  split1 : SplitState
  split2 : SplitState
  split3 : SplitState
  split4 : SplitState
  hpFilterState : HpState
deriving Repr, DecidableEq

/-- The states after `memset`. -/
def initFilterbank : FilterbankInst where
  split0 := ⟨0, 0⟩
  split1 := ⟨0, 0⟩
  split2 := ⟨0, 0⟩
  split3 := ⟨0, 0⟩
  split4 := ⟨0, 0⟩
  hpFilterState := ⟨0, 0, 0, 0⟩

/-- What the filters give for a frame: the two bands of each split, and the lowest band above
80 Hz. -/
structure FrameBands where
  from0 : SplitOutput
  from1 : SplitOutput
  from2 : SplitOutput
  from3 : SplitOutput
  from4 : SplitOutput
  aboveHp : List Int × HpState
deriving Repr, DecidableEq

/-- The filters of `WebRtcVad_CalculateFeatures`. -/
def filterFrame
    (arithmetic : Arithmetic)
    (self : FilterbankInst)
    (dataIn : List Int) : Option FrameBands := do
  -- [0 - 4000] Hz, [2000 - 4000] Hz, [0 - 2000] Hz, [0 - 1000] Hz and [0 - 500] Hz
  let from0 ← splitFilter arithmetic dataIn self.split0
  let from1 ← splitFilter arithmetic from0.hpData self.split1
  let from2 ← splitFilter arithmetic from0.lpData self.split2
  let from3 ← splitFilter arithmetic from2.lpData self.split3
  let from4 ← splitFilter arithmetic from3.lpData self.split4
  let aboveHp ← highPassFilter arithmetic from4.lpData self.hpFilterState
  return ⟨from0, from1, from2, from3, from4, aboveHp⟩

/-- The states behind a frame. -/
def FrameBands.inst (bands : FrameBands) : FilterbankInst where
  split0 := bands.from0.state
  split1 := bands.from1.state
  split2 := bands.from2.state
  split3 := bands.from3.state
  split4 := bands.from4.state
  hpFilterState := bands.aboveHp.2

/-! ## Features -/

/-- `kLogConst` -/
def kLogConst : Int :=
  24660

/-- `kLogEnergyIntPart` -/
def kLogEnergyIntPart : Int :=
  14336

/-- `kMinEnergy` -/
def kMinEnergy : Int :=
  10

/-- `LogOfEnergy`: `log_energy` and `total_energy`. -/
def logOfEnergy (dataIn : List Int) (offset totalEnergy : Int) : Int × Int :=
  let (sum, scaling) := SignalEnergy.energy dataIn
  let energy := uint32 sum
  if energy = 0 then (offset, totalEnergy)
  else
    let normalizingRshifts : Int := 17 - (Agc.normU32 energy : Int)
    let totRshifts := scaling + normalizingRshifts
    let energy :=
      if normalizingRshifts < 0 then uint32 (energy * 2 ^ (-normalizingRshifts).toNat)
      else energy >>> normalizingRshifts.toNat
    let log2Energy := int16 (kLogEnergyIntPart + (energy % 2 ^ 14) >>> (4 : Nat))
    let logEnergy :=
      int16 ((kLogConst * log2Energy) >>> (19 : Nat) +
        (totRshifts * kLogConst) >>> (9 : Nat))
    let logEnergy := if logEnergy < 0 then 0 else logEnergy
    let totalEnergy :=
      if totalEnergy ≤ kMinEnergy then
        if 0 ≤ totRshifts then int16 (totalEnergy + kMinEnergy + 1)
        else int16 (totalEnergy + int16 (energy >>> (-totRshifts).toNat))
      else totalEnergy
    (int16 (logEnergy + offset), totalEnergy)

/-- The features of the bands with `kOffsetVector`, from the highest band to the lowest, and
`total_energy`. -/
def FrameBands.features (bands : FrameBands) : List Int × Int :=
  let (feature5, totalEnergy) := logOfEnergy bands.from1.hpData 176 0
  let (feature4, totalEnergy) := logOfEnergy bands.from1.lpData 176 totalEnergy
  let (feature3, totalEnergy) := logOfEnergy bands.from2.hpData 176 totalEnergy
  let (feature2, totalEnergy) := logOfEnergy bands.from3.hpData 272 totalEnergy
  let (feature1, totalEnergy) := logOfEnergy bands.from4.hpData 368 totalEnergy
  let (feature0, totalEnergy) := logOfEnergy bands.aboveHp.1 368 totalEnergy
  ([feature0, feature1, feature2, feature3, feature4, feature5], totalEnergy)

/-- `WebRtcVad_CalculateFeatures`: the features, the total power and the states. -/
def calculateFeatures
    (self : FilterbankInst)
    (dataIn : List Int) : Option (List Int × Int × FilterbankInst) := do
  let bands ← filterFrame wrapping self dataIn
  let (features, totalEnergy) := bands.features
  return (features, totalEnergy, bands.inst)

end ApmSdk.Vad
