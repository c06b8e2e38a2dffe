import ApmSdk.WienerGain
import Mathlib.Data.UInt

namespace ApmSdk.Nsx

/-!
# The features of the fixed-point suppressor

Three features tell speech from noise: the average likelihood ratio, the spectral flatness
and the spectral difference.  Each has a histogram over a window of frames, from which
`WebRtcNsx_FeatureParameterExtraction` takes a threshold and a weight.  What is measured on
the spectrum of a frame is taken as given.
-/

/-- What `WebRtcNsx_InitCore` makes of a sample rate: the narrow band has 8000 Hz. -/
inductive Band where
  | narrow
  | wide
deriving Repr, DecidableEq

namespace Band

/-- `stages` -/
def stages : Band → Nat
  | narrow => 7
  | wide => 8

/-- `maxLrt` -/
def maxLrt : Band → Int
  | narrow => 0x0040000
  | wide => 0x0080000

/-- `minLrt` -/
def minLrt : Band → Int
  | narrow => 52429
  | wide => 104858

/-- The default of `thresholdLogLrt`. -/
def thresholdLogLrt : Band → Int
  | narrow => 131072
  | wide => 212644

end Band

/-- `HIST_PAR_EST` -/
abbrev histParEst : Nat := 1000

/-- `BIN_SIZE_LRT` -/
abbrev binSizeLrt : Nat := 10

/-- `END_STARTUP_LONG` -/
abbrev endStartupLong : Int := 200

/-- `SPECT_FLAT_TAVG_Q14` -/
abbrev spectFlatTavgQ14 : Int := 4915

/-- `SPECT_DIFF_TAVG_Q8` -/
abbrev spectDiffTavgQ8 : Int := 77

/-- `STAT_UPDATES` -/
abbrev statUpdates : Nat := 9

/-- `FACTOR_1_LRT_DIFF` -/
abbrev factor1LrtDiff : Int := 6

/-- `FACTOR_2_FLAT_Q10` -/
abbrev factor2FlatQ10 : Int := 922

/-- `THRES_FLUCT_LRT` -/
abbrev thresFluctLrt : Int := 10240

/-- `THRES_WEIGHT_FLAT_DIFF` -/
abbrev thresWeightFlatDiff : Int := 154

/-- `THRES_PEAK_FLAT` -/
abbrev thresPeakFlat : Int := 24

/-- `LIM_PEAK_SPACE_FLAT_DIFF` -/
abbrev limPeakSpaceFlatDiff : Int := 4

/-- `LIM_PEAK_WEIGHT_FLAT_DIFF` -/
abbrev limPeakWeightFlatDiff : Int := 2

/-- `WEBRTC_SPL_SAT` -/
def sat (a b c : Int) : Int :=
  if a < b then a else if b < c then c else b

/-- A saturated value is between its bounds. -/
theorem sat_range
    {minimum maximum : Int}
    (ordered : minimum ≤ maximum)
    (value : Int) :
    minimum ≤ sat maximum value minimum ∧
      sat maximum value minimum ≤ maximum := by
  unfold sat
  split_ifs <;> omega

/-- What a `NoiseSuppressionFixedC` keeps of the features. -/
structure FeatureCore where
  band : Band
  featureLogLrt : Int
  thresholdLogLrt : Int
  weightLogLrt : Int
  featureSpecDiff : Int
  thresholdSpecDiff : Int
  weightSpecDiff : Int
  featureSpecFlat : Int
  thresholdSpecFlat : Int
  weightSpecFlat : Int
  curAvgMagnEnergy : Int
  timeAvgMagnEnergy : Int
  timeAvgMagnEnergyTmp : Int
  priorNonSpeechProb : Int
  blockIndex : Int
  cntThresUpdate : Int
  histLrt : List Int
  histSpecFlat : List Int
  histSpecDiff : List Int
deriving Repr, DecidableEq

/-- What is measured on the spectrum of a frame: `currentSpectralFlatness`, unless a bin is
zero; the energy and the difference in Q(-2 * `stages`); and the sum of the smoothed
likelihood ratios. -/
structure FrameFeatures where
  spectralFlatness : Option Int
  energy : UInt32
  difference : UInt32
  logLrtSum : Int

/-! ## One histogram -/

/-- A frame is counted in a histogram. -/
def countFrame (histIndex : Int) (hist : List Int) : List Int :=
  if histIndex < histParEst then
    hist.modify histIndex.toNat fun count => int16 (count + 1)
  else hist

/-- The two main peaks of a histogram. -/
structure Peaks where
  maxPeak1 : Int
  maxPeak2 : Int
  weightPeak1 : Int
  weightPeak2 : Int
  posPeak1 : Int
  posPeak2 : Int

namespace Peaks

/-- An entry of the histogram is looked at. -/
def visit (peaks : Peaks) (entry : Int × Nat) : Peaks :=
  if peaks.maxPeak1 < entry.1 then
    { maxPeak1 := entry.1
      maxPeak2 := peaks.maxPeak1
      weightPeak1 := entry.1
      weightPeak2 := peaks.weightPeak1
      posPeak1 := 2 * entry.2 + 1
      posPeak2 := peaks.posPeak1 }
  else if peaks.maxPeak2 < entry.1 then
    { peaks with
      maxPeak2 := entry.1
      weightPeak2 := entry.1
      posPeak2 := 2 * entry.2 + 1 }
  else peaks

/-- The two peaks are merged if they are close. -/
def merge (peaks : Peaks) : Peaks :=
  if uint32 (peaks.posPeak1 - peaks.posPeak2) < limPeakSpaceFlatDiff ∧
      peaks.weightPeak1 < peaks.weightPeak2 * limPeakWeightFlatDiff then
    { peaks with
      weightPeak1 := peaks.weightPeak1 + peaks.weightPeak2
      posPeak1 := uint32 (peaks.posPeak1 + peaks.posPeak2) >>> (1 : Nat) }
  else peaks

end Peaks

/-- The main peaks of a histogram, merged if they are close. -/
def mainPeaks (hist : List Int) : Peaks :=
  (hist.zipIdx.foldl Peaks.visit ⟨0, 0, 0, 0, 0, 0⟩).merge

/-- The sum of a histogram, with each entry weighted by a power of its position. -/
def moment (power : Nat) (hist : List Int) : Int :=
  (hist.zipIdx.map fun entry => entry.1 * (2 * (entry.2 : Int) + 1) ^ power).sum

/-- The shifts of a loop that moves a word of 32 bits into 16. -/
def shiftsToW16 (word : Int) : Nat :=
  (List.range 16).countP fun shift : Nat => (2 : Int) ^ 16 ≤ word >>> shift

namespace FeatureCore

/-- The features after `WebRtcNsx_InitCore`. -/
def initCore (band : Band) : FeatureCore where
  band
  featureLogLrt := band.thresholdLogLrt
  thresholdLogLrt := band.thresholdLogLrt
  weightLogLrt := 6
  featureSpecDiff := 50
  thresholdSpecDiff := 50
  weightSpecDiff := 0
  featureSpecFlat := 20480
  thresholdSpecFlat := 20480
  weightSpecFlat := 0
  curAvgMagnEnergy := 0
  timeAvgMagnEnergy := 0
  timeAvgMagnEnergyTmp := 0
  priorNonSpeechProb := 8192
  blockIndex := -1
  cntThresUpdate := 0
  histLrt := List.replicate histParEst 0
  histSpecFlat := List.replicate histParEst 0
  histSpecDiff := List.replicate histParEst 0

/-! ## The features of a frame -/

/-- `WebRtcNsx_ComputeSpectralFlatness`, from the flatness of the frame. -/
def computeSpectralFlatness
    (inst : FeatureCore)
    (currentSpectralFlatness : Option Int) : FeatureCore :=
  match currentSpectralFlatness with
  | none =>
      let tmpU32 := uint32 (inst.featureSpecFlat * spectFlatTavgQ14)
      { inst with
        featureSpecFlat :=
          uint32 (inst.featureSpecFlat - tmpU32 >>> (14 : Nat)) }
  | some currentSpectralFlatness =>
      let tmp32 :=
        int32
          (int32 (currentSpectralFlatness - int32 inst.featureSpecFlat) *
            spectFlatTavgQ14)
      { inst with
        featureSpecFlat :=
          uint32 (inst.featureSpecFlat + tmp32 >>> (14 : Nat)) }

/-- The average energy, during the start-up. -/
def averageEnergy (inst : FeatureCore) (energy : UInt32) : FeatureCore :=
  if inst.blockIndex < endStartupLong then
    let timeAvgMagnEnergyTmp :=
      uint32 (inst.timeAvgMagnEnergyTmp + energy.toNat)
    { inst with
      timeAvgMagnEnergyTmp
      timeAvgMagnEnergy :=
        Aecm.divU32U16 timeAvgMagnEnergyTmp (inst.blockIndex + 1) }
  else inst

/-- `WebRtcNsx_ComputeSpectralDifference`, from the difference of the frame. -/
def computeSpectralDifference
    (inst : FeatureCore)
    (energy difference : UInt32) : FeatureCore :=
  let tmpU32no1 : Int := difference.toNat
  { inst with
    curAvgMagnEnergy := uint32 (inst.curAvgMagnEnergy + energy.toNat)
    featureSpecDiff :=
      if tmpU32no1 < inst.featureSpecDiff then
        let tmpU32no2 :=
          uint32 ((inst.featureSpecDiff - tmpU32no1) * spectDiffTavgQ8)
        uint32 (inst.featureSpecDiff - tmpU32no2 >>> (8 : Nat))
      else
        let tmpU32no2 :=
          uint32 ((tmpU32no1 - inst.featureSpecDiff) * spectDiffTavgQ8)
        uint32 (inst.featureSpecDiff + tmpU32no2 >>> (8 : Nat)) }

/-! ## Thresholds and weights -/

/-- `WebRtcNsx_FeatureParameterExtraction` without the flag. -/
def updateHistograms (inst : FeatureCore) : FeatureCore :=
  { inst with
    histLrt := countFrame (uint32 inst.featureLogLrt) inst.histLrt
    histSpecFlat :=
      countFrame (uint32 (inst.featureSpecFlat * 5) >>> (8 : Nat))
        inst.histSpecFlat
    histSpecDiff :=
      countFrame
        (if 0 < inst.timeAvgMagnEnergy then
          uint32 (inst.featureSpecDiff * 5) >>> inst.band.stages /
            inst.timeAvgMagnEnergy
        else histParEst)
        inst.histSpecDiff }

/-- `numHistLrt` -/
def numHistLrt (inst : FeatureCore) : Int :=
  int16 (moment 0 (inst.histLrt.take binSizeLrt))

/-- The likelihood ratio has fluctuated too little. -/
def LowFluctuation (inst : FeatureCore) : Prop :=
  let avgHistLrtFX := int32 (moment 1 (inst.histLrt.take binSizeLrt))
  let avgHistLrtComplFX := int32 (moment 1 inst.histLrt)
  let avgSquareHistLrtFX := int32 (moment 2 inst.histLrt)
  int32
      (avgSquareHistLrtFX * inst.numHistLrt -
        avgHistLrtFX * avgHistLrtComplFX) <
    thresFluctLrt * inst.numHistLrt

instance (inst : FeatureCore) : Decidable inst.LowFluctuation :=
  inferInstanceAs (Decidable (_ < _))

/-- The threshold of the likelihood ratio. -/
def extractLogLrt (inst : FeatureCore) : Int :=
  let avgHistLrtFX := int32 (moment 1 (inst.histLrt.take binSizeLrt))
  let tmpU32 := uint32 (factor1LrtDiff * uint32 avgHistLrtFX)
  if inst.LowFluctuation ∨ inst.numHistLrt = 0 ∨
      uint32 (100 * inst.numHistLrt) < tmpU32 then
    inst.band.maxLrt
  else
    sat inst.band.maxLrt
      (int32
        (uint32 (tmpU32 * 2 ^ (9 + inst.band.stages)) / inst.numHistLrt / 25))
      inst.band.minLrt

/-- `useFeatureSpecFlat` -/
def UsesSpecFlat (inst : FeatureCore) : Prop :=
  let peaks := mainPeaks inst.histSpecFlat
  ¬(peaks.weightPeak1 < thresWeightFlatDiff ∨
    peaks.posPeak1 < thresPeakFlat)

instance (inst : FeatureCore) : Decidable inst.UsesSpecFlat :=
  inferInstanceAs (Decidable (¬_))

/-- `useFeatureSpecDiff` -/
def UsesSpecDiff (inst : FeatureCore) : Prop :=
  ¬inst.LowFluctuation ∧
    ¬(mainPeaks inst.histSpecDiff).weightPeak1 < thresWeightFlatDiff

instance (inst : FeatureCore) : Decidable inst.UsesSpecDiff :=
  inferInstanceAs (Decidable (_ ∧ _))

/-- `WebRtcNsx_FeatureParameterExtraction` with the flag. -/
def extractParameters (inst : FeatureCore) : FeatureCore :=
  let useFeatureSpecFlat : Int := if inst.UsesSpecFlat then 1 else 0
  let useFeatureSpecDiff : Int := if inst.UsesSpecDiff then 1 else 0
  let featureSum := Int.tdiv 6 (1 + useFeatureSpecFlat + useFeatureSpecDiff)
  { inst with
    thresholdLogLrt := inst.extractLogLrt
    thresholdSpecFlat :=
      if inst.UsesSpecFlat then
        sat 38912
          (uint32 (factor2FlatQ10 * (mainPeaks inst.histSpecFlat).posPeak1))
          4096
      else inst.thresholdSpecFlat
    thresholdSpecDiff :=
      if inst.LowFluctuation then inst.thresholdSpecDiff
      else
        sat 100
          (uint32 (factor1LrtDiff * (mainPeaks inst.histSpecDiff).posPeak1))
          16
    weightLogLrt := featureSum
    weightSpecFlat := useFeatureSpecFlat * featureSum
    weightSpecDiff := useFeatureSpecDiff * featureSum
    histLrt := List.replicate histParEst 0
    histSpecFlat := List.replicate histParEst 0
    histSpecDiff := List.replicate histParEst 0 }

/-- The spectral difference in terms of a new average energy. -/
def rescaleSpecDiff (inst : FeatureCore) (tmpU32no1 : Int) : Int :=
  if tmpU32no1 ≠ inst.timeAvgMagnEnergy ∧ inst.featureSpecDiff ≠ 0 ∧
      0 < inst.timeAvgMagnEnergy then
    let shifts1 := shiftsToW16 tmpU32no1
    let shifts2 := shiftsToW16 inst.featureSpecDiff
    let tmpU32no3 :=
      uint32 (tmpU32no1 >>> shifts1 * inst.featureSpecDiff >>> shifts2) /
        inst.timeAvgMagnEnergy
    if Agc.normU32 tmpU32no3 < shifts1 + shifts2 then 0x007FFFFF
    else min 0x007FFFFF (uint32 (tmpU32no3 * 2 ^ (shifts1 + shifts2)))
  else inst.featureSpecDiff

/-- The end of a window. -/
def endWindow (inst : FeatureCore) : FeatureCore :=
  let tmpU32no1 :=
    uint32
        (inst.curAvgMagnEnergy >>> statUpdates + inst.timeAvgMagnEnergy + 1) >>>
      (1 : Nat)
  { inst with
    cntThresUpdate := 0
    featureSpecDiff := inst.rescaleSpecDiff tmpU32no1
    timeAvgMagnEnergy := tmpU32no1
    curAvgMagnEnergy := 0 }

/-- The histograms of a frame, and at the end of a window the parameters. -/
def updateModel (inst : FeatureCore) : FeatureCore :=
  let inst := { inst with cntThresUpdate := inst.cntThresUpdate + 1 }
  if inst.cntThresUpdate = 2 ^ statUpdates then
    inst.extractParameters.endWindow
  else inst.updateHistograms

/-- The features of a frame that is not all zero, before
`WebRtcNsx_SpeechNoiseProb`. -/
def measure (inst : FeatureCore) (frame : FrameFeatures) : FeatureCore :=
  let inst := { inst with blockIndex := inst.blockIndex + 1 }
  let inst := inst.computeSpectralFlatness frame.spectralFlatness
  let inst := inst.averageEnergy frame.energy
  let inst := inst.computeSpectralDifference frame.energy frame.difference
  inst.updateModel

/-! ## What every run keeps -/

/-- The weights of the features sum up to six, the features are words of 32 bits, and the
threshold of the spectral difference is at most 100. -/
structure WellFormed (inst : FeatureCore) : Prop where
  weightLogLrt : 0 ≤ inst.weightLogLrt
  weightSpecFlat : 0 ≤ inst.weightSpecFlat
  weightSpecDiff : 0 ≤ inst.weightSpecDiff
  weights :
    inst.weightLogLrt + inst.weightSpecFlat + inst.weightSpecDiff = 6
  thresholdSpecDiff :
    0 ≤ inst.thresholdSpecDiff ∧ inst.thresholdSpecDiff ≤ 100
  featureSpecDiff :
    0 ≤ inst.featureSpecDiff ∧ inst.featureSpecDiff < 2 ^ 32
  timeAvgMagnEnergy :
    0 ≤ inst.timeAvgMagnEnergy ∧ inst.timeAvgMagnEnergy < 2 ^ 32
  blockIndex : -1 ≤ inst.blockIndex
  priorNonSpeechProb :
    0 ≤ inst.priorNonSpeechProb ∧ inst.priorNonSpeechProb ≤ 16384

theorem WellFormed.initCore (band : Band) :
    (FeatureCore.initCore band).WellFormed := by
  constructor <;> simp [FeatureCore.initCore]

namespace WellFormed

variable {inst : FeatureCore}

theorem computeSpectralFlatness
    (wellFormed : inst.WellFormed)
    (currentSpectralFlatness : Option Int) :
    (inst.computeSpectralFlatness currentSpectralFlatness).WellFormed := by
  unfold FeatureCore.computeSpectralFlatness
  cases currentSpectralFlatness with
  | none =>
      exact { wellFormed with }
  | some flatness =>
      exact { wellFormed with }

theorem averageEnergy
    (wellFormed : inst.WellFormed)
    (energy : UInt32) :
    (inst.averageEnergy energy).WellFormed := by
  unfold FeatureCore.averageEnergy
  split
  next startup =>
      refine { wellFormed with timeAvgMagnEnergy := ?_ }
      have block : 0 ≤ inst.blockIndex + 1 := by
        have := wellFormed.blockIndex
        omega
      unfold Aecm.divU32U16
      dsimp only
      split
      next =>
          unfold uint32
          generalize
            word : (inst.timeAvgMagnEnergyTmp + energy.toNat) % 2 ^ 32 = sum
          have quotient := Int.ediv_nonneg (by omega : 0 ≤ sum) block
          have smaller :=
            Int.ediv_le_self (inst.blockIndex + 1) (by omega : 0 ≤ sum)
          omega
      next =>
          decide
  next =>
      exact wellFormed

theorem computeSpectralDifference
    (wellFormed : inst.WellFormed)
    (energy difference : UInt32) :
    (inst.computeSpectralDifference energy difference).WellFormed := by
  refine { wellFormed with featureSpecDiff := ?_ }
  unfold FeatureCore.computeSpectralDifference uint32
  dsimp only
  split <;> omega

theorem updateHistograms (wellFormed : inst.WellFormed) :
    inst.updateHistograms.WellFormed :=
  { wellFormed with }

theorem extractParameters (wellFormed : inst.WellFormed) :
    inst.extractParameters.WellFormed := by
  have threshold := wellFormed.thresholdSpecDiff
  refine
    { wellFormed with
      weightLogLrt := ?logLrt
      weightSpecFlat := ?specFlat
      weightSpecDiff := ?specDiff
      weights := ?weights
      thresholdSpecDiff := ?threshold }
  case threshold =>
    unfold FeatureCore.extractParameters sat
    dsimp only
    split_ifs <;> omega
  all_goals
    unfold FeatureCore.extractParameters
    dsimp only
    split_ifs <;> decide

theorem endWindow (wellFormed : inst.WellFormed) :
    inst.endWindow.WellFormed := by
  have difference := wellFormed.featureSpecDiff
  refine
    { wellFormed with
      featureSpecDiff := ?_
      timeAvgMagnEnergy := ?_ }
  · unfold FeatureCore.endWindow FeatureCore.rescaleSpecDiff uint32
    dsimp only
    split_ifs <;> omega
  · unfold FeatureCore.endWindow uint32
    dsimp only
    rw [Int.shiftRight_eq_div_pow]
    omega

theorem updateModel (wellFormed : inst.WellFormed) :
    inst.updateModel.WellFormed := by
  have counted :
      { inst with
        cntThresUpdate := inst.cntThresUpdate + 1 : FeatureCore }.WellFormed :=
    { wellFormed with }
  unfold FeatureCore.updateModel
  dsimp only
  split
  next =>
      exact counted.extractParameters.endWindow
  next =>
      exact counted.updateHistograms

/-- The measures of a frame keep the features well formed. -/
theorem measure
    (wellFormed : inst.WellFormed)
    (frame : FrameFeatures) :
    (inst.measure frame).WellFormed := by
  have started :
      { inst with blockIndex := inst.blockIndex + 1 : FeatureCore }.WellFormed :=
    { wellFormed with
      blockIndex := by
        have := wellFormed.blockIndex
        dsimp only
        omega }
  exact
    (((started.computeSpectralFlatness frame.spectralFlatness).averageEnergy
        frame.energy).computeSpectralDifference
          frame.energy frame.difference).updateModel

end WellFormed

end FeatureCore

end ApmSdk.Nsx
