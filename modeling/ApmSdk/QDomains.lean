import ApmSdk.QuantileNoise

namespace ApmSdk.Nsx

/-!
# The Q-domains of the fixed-point suppressor

Every frame is normalised by its own windowed maximum, so what is kept of earlier frames
is in other domains than the spectrum of the current one.  The shifts between them have
counts that are sums and differences of `normData`, `minNorm`, `qNoise`, `prevQMagn` and
`prevQNoise`.  The counts that are constants of the code are left out.
-/

/-- `END_STARTUP_SHORT` -/
abbrev endStartupShort : Int := 50

/-- `kStartBand` -/
abbrev kStartBand : Nat := 5

/-- `ONE_MINUS_GAMMA_PAUSE_Q8` -/
abbrev oneMinusGammaPauseQ8 : Int := 13

/-- A frame as the shifts see it: the windowed maximum, the spectrum, and words that are
normalised before they are shifted, namely the numerators of the parametric filter and,
at the end of a window, the shifts and the word of the new spectral difference. -/
structure AnalysisFrame (band : Band) where
  maxWinData : Int
  range : 0 ≤ maxWinData ∧ maxWinData < 2 ^ 15
  bins : List CurrentBin
  size : bins.length = band.magnLen
  numerators : List UInt32
  rescaled : Option (Nat × UInt32)
  numBands : Nat

namespace AnalysisFrame

variable {band : Band} (frame : AnalysisFrame band)

/-- `normData` -/
def normData : Nat :=
  Aecm.normW16 frame.maxWinData

/-- `qMagn` -/
def qMagn : Int :=
  frame.normData - band.stages

/-- `magnU16` -/
def magn : List UInt16 :=
  frame.bins.map (·.magnU16)

/-- What the noise update reads of the frame. -/
def noiseFrame : NoiseFrame where
  qMagn := frame.qMagn
  bins := frame.bins

/-- `sum_log_magn` -/
def sumLogMagn : Int :=
  ((frame.magn.drop kStartBand).map log2Q8).sum

end AnalysisFrame

/-- What a `NoiseSuppressionFixedC` keeps of the domains. -/
structure DomainCore where
  blockIndex : Int
  minNorm : Int
  prevQMagn : Int
  avgMagnPause : List Int
  noise : NoiseEstimate
  quantiles : QuantileNoise
deriving Repr, DecidableEq

namespace DomainCore

/-- The domains after `WebRtcNsx_InitCore`. -/
def initCore (band : Band) : DomainCore where
  blockIndex := -1
  minNorm := 15
  prevQMagn := 0
  avgMagnPause := List.replicate band.magnLen 0
  noise := .initCore band.magnLen
  quantiles := .initCore band

variable {band : Band} (inst : DomainCore) (frame : AnalysisFrame band)

/-! ## The counts of `WebRtcNsx_DataAnalysis` -/

/-- `right_shifts_in_magnU16`, before it is cut at zero. -/
def aboveMinNorm : Int :=
  frame.normData - inst.minNorm

/-- `minNorm` after the frame. -/
def lowerMinNorm : Int :=
  inst.minNorm - max (-inst.aboveMinNorm frame) 0

/-- `zeros`, the shifts that fit the sum of the logs in 16 bits. -/
def sumShifts : Int :=
  max (16 - (normW32 frame.sumLogMagn : Int)) 0

/-- The counts of `WebRtcNsx_DataAnalysis`; it shifts during the start-up alone. -/
def dataAnalysisShifts : List Int :=
  if inst.blockIndex < endStartupShort then
    [max (-inst.aboveMinNorm frame) 0, max (inst.aboveMinNorm frame) 0,
      band.stages + 8, sumShifts frame, 3 + sumShifts frame] ++
    ((frame.magn.drop kStartBand).filter (·.toNat ≠ 0)).map
      fun magn => (Agc.normU32 magn.toNat : Int)
  else []

/-! ## The counts of `WebRtcNsx_ComputeSpectralDifference` -/

/-- `avgPauseFX` -/
def avgPause (band : Band) : Int :=
  int32 inst.avgMagnPause.sum >>> (band.stages - 1)

/-- The largest deviation of a pause magnitude from the average. -/
def largestDeviation (band : Band) : Int :=
  let maxPause := inst.avgMagnPause.foldl max 0
  let minPause := inst.avgMagnPause.foldl min (inst.avgMagnPause.headD 0)
  max (int32 (maxPause - inst.avgPause band))
    (int32 (inst.avgPause band - minPause))

/-- `nShifts`, the shifts that keep the variance of the pause magnitudes in its type. -/
def varianceShifts (band : Band) : Nat :=
  10 + band.stages - normW32 (inst.largestDeviation band)

/-- `avgMagnFX` -/
def avgMagn : Int :=
  uint32 ((frame.magn.map fun magn => (magn.toNat : Int)).sum) >>>
    (band.stages - 1)

/-- `varPauseUFX` -/
def varPause (band : Band) : Int :=
  uint32
    (inst.avgMagnPause.map fun pause =>
      (int32 (pause - inst.avgPause band) >>> inst.varianceShifts band) ^ 2).sum

/-- `covMagnPauseFX` -/
def covMagnPause : Int :=
  int32
    (inst.avgMagnPause.zipWith
      (fun pause (magn : UInt16) =>
        int32 (pause - inst.avgPause band) *
          int16 (magn.toNat - avgMagn frame))
      frame.magn).sum

/-- `norm32` -/
def covNorm : Int :=
  (Agc.normU32 |inst.covMagnPause frame| : Int) - 16

/-- The counts of `WebRtcNsx_ComputeSpectralDifference`. -/
def spectralDifferenceShifts : List Int :=
  [(band.stages : Int) - 1, inst.varianceShifts band,
    2 * frame.normData + band.stages - 1, 2 * frame.normData] ++
  if inst.varPause band ≠ 0 ∧ inst.covMagnPause frame ≠ 0 then
    let norm32 := inst.covNorm frame
    let nShifts := 2 * (inst.varianceShifts band + norm32)
    [if 0 < norm32 then norm32 else -norm32,
      -- the variance is shifted where the count is negative, else the quotient
      if nShifts < 0 then -nShifts else nShifts]
  else []

/-! ## The counts of `WebRtcNsx_ProcessCore` -/

/-- The quantiles after the frame. -/
def nextQuantiles : QuantileNoise :=
  inst.quantiles.noiseEstimation band frame.normData (inst.blockIndex + 1)
    frame.magn

/-- `q_domain_to_use` -/
def startupDomain : Int :=
  min (inst.nextQuantiles frame).qNoise (inst.lowerMinNorm frame - band.stages)

/-- `qNoise`, as step 1 uses it. -/
def qNoise : Int :=
  if inst.blockIndex + 1 < endStartupShort then inst.startupDomain frame
  else (inst.nextQuantiles frame).qNoise

/-- The counts for the parametric estimate of the start-up. -/
def startupShifts : List Int :=
  if inst.blockIndex + 1 < endStartupShort then
    [(inst.nextQuantiles frame).qNoise - inst.startupDomain frame,
      inst.lowerMinNorm frame - band.stages - inst.startupDomain frame] ++
    frame.numerators.flatMap fun numerator =>
      let nShifts := sat 6 (Agc.normU32 numerator.toNat) 0
      [nShifts, 6 - nShifts]
  else []

/-- The count for the average energy of a stream. -/
def energyShifts : List Int :=
  if inst.blockIndex + 1 < endStartupLong then
    [2 * (frame.normData : Int) + band.stages - 1]
  else []

/-- A count for a shift to the left, whose negative is one to the right. -/
def eitherWay (shift : Int) : Int :=
  if shift < 0 then -shift else shift

/-- The counts of step 1. -/
def priorSnrShifts : List Int :=
  [eitherWay (6 + frame.qMagn - inst.qNoise frame),
    5 - inst.prevQMagn + inst.noise.prevQNoise]

/-- The counts at the end of a window. -/
def windowShifts : List Int :=
  match frame.rescaled with
  | some (norm32, word) =>
      if Agc.normU32 word.toNat < norm32 then [] else [(norm32 : Int)]
  | none => []

/-- The counts of the noise update. -/
def noiseUpdateShifts : List Int :=
  let nShifts := inst.prevQMagn - frame.qMagn
  [eitherWay (inst.noise.postShifts frame.noiseFrame), eitherWay (-nShifts)] ++
  if 0 ≤ nShifts ∧
      ∃ bin ∈ frame.bins, oneMinusProbRangeQ8 < bin.nonSpeechProb then
    [nShifts, 8 + nShifts]
  else []

/-- `noiseU32` after the update. -/
def nextNoise : List Int :=
  inst.noise.noise frame.noiseFrame

/-- `tmpMagnU32` and `tmpNoiseU32` of step 3. -/
def commonDomain (nShifts : Int) (magn : UInt16) (noise : Int) : Int × Int :=
  if nShifts < 0 then
    (magn.toNat, uint32 (noise * 2 ^ (-nShifts).toNat))
  else if 17 < nShifts then
    (uint32 (magn.toNat * 2 ^ 17), noise >>> (nShifts - 17).toNat)
  else (uint32 (magn.toNat * 2 ^ nShifts.toNat), noise)

/-- The counts of a bin in step 3. -/
def nearSnrShifts (magnNoise : Int × Int) : List Int :=
  if magnNoise.2 < magnNoise.1 then
    let norm32 : Int :=
      min 11 (Agc.normU32 (magnNoise.1 - magnNoise.2))
    [norm32, 11 - norm32]
  else []

/-- The counts of step 3. -/
def gainShifts : List Int :=
  let nShifts := inst.noise.prevQNoise + 11 - frame.qMagn
  (if nShifts < 0 then [-nShifts]
    else if 17 < nShifts then [nShifts - 17]
    else [nShifts]) ++
  (frame.magn.zipWith (commonDomain nShifts) (inst.nextNoise frame)).flatMap
    nearSnrShifts

/-- The counts that save the noise for the next frame and that average over the high
band. -/
def endShifts : List Int :=
  let norm32 : Int := Agc.normU32 ((inst.nextNoise frame).foldl max 0)
  (if 5 < norm32 then [norm32 - 5] else [5 - norm32]) ++
  if 1 < frame.numBands then
    [(band.stages : Int) - 7, (band.stages : Int) - 3]
  else []

/-- The counts of `WebRtcNsx_ProcessCore`. -/
def processCoreShifts : List Int :=
  inst.startupShifts frame ++ inst.energyShifts frame ++
    inst.priorSnrShifts frame ++ windowShifts frame ++
      inst.noiseUpdateShifts frame ++ inst.gainShifts frame ++
        inst.endShifts frame

/-- `avgMagnPause` of a bin after the noise update. -/
def pauseUpdate (nShifts : Int) (pause : Int) (bin : CurrentBin) : Int :=
  let tmp32no2 := Agc.shiftW32 pause (-nShifts)
  if oneMinusProbRangeQ8 < bin.nonSpeechProb then
    let tmp32no1 :=
      if nShifts < 0 then
        int32
            (int32 ((bin.magnU16.toNat - tmp32no2) * oneMinusGammaPauseQ8) +
              128) >>>
          (8 : Nat)
      else
        int32
            (int32
                ((bin.magnU16.toNat * 2 ^ nShifts.toNat - pause) *
                  oneMinusGammaPauseQ8) +
              128 * 2 ^ nShifts.toNat) >>>
          (8 + nShifts).toNat
    int32 (tmp32no2 + tmp32no1)
  else tmp32no2

/-- `WebRtcNsx_ProcessCore` -/
def processCore : Option DomainCore :=
  if frame.maxWinData = 0 then some inst
  else
    some
      { blockIndex := inst.blockIndex + 1
        minNorm := inst.lowerMinNorm frame
        prevQMagn := frame.qMagn
        avgMagnPause :=
          inst.avgMagnPause.zipWith
            (pauseUpdate (inst.prevQMagn - frame.qMagn))
            frame.bins
        noise := inst.noise.save (inst.nextNoise frame)
        quantiles := inst.nextQuantiles frame }

/-! ## What the shifts must be -/

/-- A count that the language defines for a word of 32 bits. -/
def IsCount (count : Int) : Prop :=
  0 ≤ count ∧ count ≤ 31

instance (count : Int) : Decidable (IsCount count) :=
  inferInstanceAs (Decidable (_ ∧ _))

/-- What the shifts and the domains of a frame must be. -/
structure FrameKept : Prop where
  dataAnalysis : ∀ count ∈ inst.dataAnalysisShifts frame, IsCount count
  spectralDifference :
    ∀ count ∈ inst.spectralDifferenceShifts frame, IsCount count
  processCore : ∀ count ∈ inst.processCoreShifts frame, IsCount count
  normData : frame.normData ≤ 14
  minNorm : 0 ≤ inst.lowerMinNorm frame ∧ inst.lowerMinNorm frame ≤ 15
  qMagn : -8 ≤ frame.qMagn ∧ frame.qMagn ≤ 7
  qNoise : -17 ≤ inst.qNoise frame ∧ inst.qNoise frame ≤ 21
  prevQNoise :
    inst.prevQMagn - 5 ≤ inst.noise.prevQNoise ∧
      inst.noise.prevQNoise ≤ inst.prevQMagn + 26

/-- A frame that is not all zero has the shifts it must have. -/
def Kept : Prop :=
  frame.maxWinData ≠ 0 → inst.FrameKept frame

/-- The covariance of the pause magnitudes with the spectrum is not small beside the
shifts that their variance needs, and has 31 bits. -/
def CovarianceFits : Prop :=
  inst.varPause band = 0 ∨
    inst.covMagnPause frame = 0 ∨
      2 ^ inst.varianceShifts band ≤ |inst.covMagnPause frame| ∧
        (inst.varianceShifts band = 0 → |inst.covMagnPause frame| < 2 ^ 31)

/-- The windowed maximum is 4 at least, the noise of the previous frames is in a domain
near its spectrum and near the current one, and the covariance is in range. -/
structure FrameInRange : Prop where
  maxWinData : 4 ≤ frame.maxWinData
  prevQMagn :
    inst.prevQMagn - 5 ≤ inst.noise.prevQNoise ∧
      inst.noise.prevQNoise ≤ inst.prevQMagn + 26
  qMagn : |inst.noise.prevQNoise - frame.qMagn| ≤ 31
  covariance : inst.CovarianceFits frame

/-- A frame is all zero or in range. -/
def InRange : Prop :=
  frame.maxWinData = 0 ∨ inst.FrameInRange frame

end DomainCore

/-! ## Norms -/

theorem Band.stages_bounds (band : Band) :
    7 ≤ band.stages ∧ band.stages ≤ 8 := by
  cases band <;> decide

/-- A word has as many leading zeros as it lacks bits. -/
theorem normU32_le_iff
    {word : Int}
    (positive : 0 < word)
    (below : word < 2 ^ 32)
    {bits : Nat}
    (atMost : bits ≤ 31) :
    Agc.normU32 word ≤ 31 - bits ↔ 2 ^ bits ≤ word := by
  obtain ⟨least, fits⟩ :=
    leadingZeros_normalises (show 16 ≤ 32 by decide) (by decide) positive below
  unfold Agc.normU32
  rw [if_neg positive.ne']
  constructor
  · intro few
    by_contra smaller
    have power : (2 : Int) ^ leadingZeros 32 word ≤ 2 ^ (31 - bits) :=
      pow_le_pow_right₀ (by decide) few
    have product :
        word * 2 ^ leadingZeros 32 word < 2 ^ bits * 2 ^ (31 - bits) :=
      mul_lt_mul (not_le.mp smaller) power (by positivity) (by positivity)
    rw [← pow_add, Nat.add_sub_cancel' atMost] at product
    exact absurd least (not_le.mpr product)
  · intro larger
    by_contra more
    have power : (2 : Int) ^ (32 - bits) ≤ 2 ^ leadingZeros 32 word :=
      pow_le_pow_right₀ (by decide) (by omega)
    have product :
        (2 : Int) ^ bits * 2 ^ (32 - bits) ≤
          word * 2 ^ leadingZeros 32 word :=
      mul_le_mul larger power (by positivity) positive.le
    rw [← pow_add, Nat.add_sub_cancel' (by omega)] at product
    exact absurd fits (not_lt.mpr product)

namespace AnalysisFrame

variable {band : Band} {frame : AnalysisFrame band}

/-- The norm of a frame that is not all zero. -/
theorem normData_le (present : frame.maxWinData ≠ 0) :
    frame.normData ≤ 14 := by
  obtain ⟨nonneg, below⟩ := frame.range
  have fits :=
    (Aecm.normW16_normalises (show 0 < frame.maxWinData by omega) below).2
  unfold normData
  by_contra more
  have power : (2 : Int) ^ 15 ≤ 2 ^ Aecm.normW16 frame.maxWinData :=
    pow_le_pow_right₀ (by decide) (by omega)
  have product :
      1 * (2 : Int) ^ 15 ≤
        frame.maxWinData * 2 ^ Aecm.normW16 frame.maxWinData :=
    mul_le_mul (by omega) power (by decide) nonneg
  omega

/-- A windowed maximum of four leaves a sum of squares its bits. -/
theorem normData_le_iff (present : frame.maxWinData ≠ 0) :
    frame.normData ≤ 12 ↔ 4 ≤ frame.maxWinData := by
  obtain ⟨nonneg, below⟩ := frame.range
  obtain ⟨least, fits⟩ :=
    Aecm.normW16_normalises (show 0 < frame.maxWinData by omega) below
  unfold normData
  constructor
  · intro few
    by_contra smaller
    have power : (2 : Int) ^ Aecm.normW16 frame.maxWinData ≤ 2 ^ 12 :=
      pow_le_pow_right₀ (by decide) few
    have product :
        frame.maxWinData * 2 ^ Aecm.normW16 frame.maxWinData ≤ 3 * 2 ^ 12 :=
      mul_le_mul (by omega) power (by positivity) (by decide)
    omega
  · intro larger
    by_contra more
    have power : (2 : Int) ^ 13 ≤ 2 ^ Aecm.normW16 frame.maxWinData :=
      pow_le_pow_right₀ (by decide) (by omega)
    have product :
        4 * (2 : Int) ^ 13 ≤
          frame.maxWinData * 2 ^ Aecm.normW16 frame.maxWinData :=
      mul_le_mul larger power (by decide) nonneg
    omega

theorem qMagn_bounds (present : frame.maxWinData ≠ 0) :
    -8 ≤ frame.qMagn ∧ frame.qMagn ≤ 7 := by
  have small := normData_le present
  have stages := band.stages_bounds
  unfold qMagn
  omega

theorem magn_length (frame : AnalysisFrame band) :
    frame.magn.length = band.magnLen := by
  unfold magn
  rw [List.length_map, frame.size]

end AnalysisFrame

namespace DomainCore

variable {band : Band} {inst : DomainCore} {frame : AnalysisFrame band}

/-- The domains of earlier frames, in the ranges that every frame keeps. -/
structure WellFormed (band : Band) (inst : DomainCore) : Prop where
  minNorm : 0 ≤ inst.minNorm ∧ inst.minNorm ≤ 15
  prevQMagn : -8 ≤ inst.prevQMagn ∧ inst.prevQMagn ≤ 7
  quantiles : inst.quantiles.InRange band

theorem WellFormed.initCore (band : Band) :
    (DomainCore.initCore band).WellFormed band where
  minNorm := by
    simp [DomainCore.initCore]
  prevQMagn := by
    simp [DomainCore.initCore]
  quantiles := .initCore band

namespace WellFormed

theorem lowerMinNorm
    (wellFormed : inst.WellFormed band)
    (frame : AnalysisFrame band) :
    0 ≤ inst.lowerMinNorm frame ∧ inst.lowerMinNorm frame ≤ 15 := by
  have bounds := wellFormed.minNorm
  unfold DomainCore.lowerMinNorm aboveMinNorm
  omega

theorem nextQuantiles
    (wellFormed : inst.WellFormed band)
    (present : frame.maxWinData ≠ 0) :
    (inst.nextQuantiles frame).InRange band :=
  wellFormed.quantiles.noiseEstimation (frame.normData_le present)
    frame.magn_length _

theorem qNoise
    (wellFormed : inst.WellFormed band)
    (present : frame.maxWinData ≠ 0) :
    -17 ≤ inst.qNoise frame ∧ inst.qNoise frame ≤ 21 := by
  have bounds := (wellFormed.nextQuantiles present).qNoise
  have minNorm := wellFormed.lowerMinNorm frame
  have stages := band.stages_bounds
  unfold DomainCore.qNoise startupDomain
  split <;> omega

/-- A frame keeps the ranges. -/
theorem processCore
    (wellFormed : inst.WellFormed band)
    {next : DomainCore}
    (taken : inst.processCore frame = some next) :
    next.WellFormed band := by
  unfold DomainCore.processCore at taken
  split at taken
  next =>
      obtain rfl := Option.some.inj taken
      exact wellFormed
  next present =>
      obtain rfl := Option.some.inj taken
      exact
        { minNorm := wellFormed.lowerMinNorm frame
          prevQMagn := frame.qMagn_bounds present
          quantiles := wellFormed.nextQuantiles present }

end WellFormed

/-! ## Counts -/

/-- The counts of `WebRtcNsx_DataAnalysis` are those of shifts. -/
theorem WellFormed.dataAnalysis
    (wellFormed : inst.WellFormed band)
    (present : frame.maxWinData ≠ 0) :
    ∀ count ∈ inst.dataAnalysisShifts frame, IsCount count := by
  have bounds := wellFormed.minNorm
  have small := frame.normData_le present
  have stages := band.stages_bounds
  have sum := normW32_le frame.sumLogMagn
  have above :
      -15 ≤ inst.aboveMinNorm frame ∧ inst.aboveMinNorm frame ≤ 14 := by
    unfold aboveMinNorm
    omega
  have fit : 0 ≤ sumShifts frame ∧ sumShifts frame ≤ 16 := by
    unfold sumShifts
    omega
  have logs :
      ∀ count ∈
        ((frame.magn.drop kStartBand).filter (·.toNat ≠ 0)).map
          fun magn => (Agc.normU32 magn.toNat : Int),
        IsCount count := by
    intro count member
    obtain ⟨magn, -, rfl⟩ := List.mem_map.mp member
    have atMost := normU32_le magn.toNat
    unfold IsCount
    omega
  unfold dataAnalysisShifts
  split
  next =>
      simp only [List.forall_mem_append, List.forall_mem_cons]
      refine ⟨⟨?_, ?_, ?_, ?_, ?_, by simp⟩, logs⟩
      all_goals
        unfold IsCount
        omega
  next =>
      simp

/-- The shifts of the covariance are those of a word where it is in range. -/
theorem covariance_iff (related : inst.covMagnPause frame ≠ 0) :
    IsCount
        (let nShifts := 2 * (inst.varianceShifts band + inst.covNorm frame)
        if nShifts < 0 then -nShifts else nShifts) ↔
      2 ^ inst.varianceShifts band ≤ |inst.covMagnPause frame| ∧
        (inst.varianceShifts band = 0 →
          |inst.covMagnPause frame| < 2 ^ 31) := by
  have positive : 0 < |inst.covMagnPause frame| := abs_pos.mpr related
  have below : |inst.covMagnPause frame| < 2 ^ 32 := by
    unfold covMagnPause int32
    rw [Int.bmod_def]
    split <;> (rw [abs_lt]; omega)
  have stages := band.stages_bounds
  have few : inst.varianceShifts band ≤ 18 := by
    unfold varianceShifts
    omega
  have enough :
      Agc.normU32 |inst.covMagnPause frame| ≤ 31 - inst.varianceShifts band ↔
        2 ^ inst.varianceShifts band ≤ |inst.covMagnPause frame| :=
    normU32_le_iff positive below (by omega)
  have top :
      Agc.normU32 |inst.covMagnPause frame| ≤ 31 - 31 ↔
        2 ^ 31 ≤ |inst.covMagnPause frame| :=
    normU32_le_iff positive below le_rfl
  rw [← enough, ← not_le, ← top]
  unfold IsCount covNorm
  dsimp only
  split <;> omega

theorem spectralDifference_iff (present : frame.maxWinData ≠ 0) :
    (∀ count ∈ inst.spectralDifferenceShifts frame, IsCount count) ↔
      4 ≤ frame.maxWinData ∧ inst.CovarianceFits frame := by
  have small := frame.normData_le present
  have stages := band.stages_bounds
  have few : inst.varianceShifts band ≤ 18 := by
    unfold varianceShifts
    omega
  have norm := normU32_le |inst.covMagnPause frame|
  have first :
      (∀ count ∈
          [(band.stages : Int) - 1, inst.varianceShifts band,
            2 * frame.normData + band.stages - 1, 2 * frame.normData],
          IsCount count) ↔
        4 ≤ frame.maxWinData := by
    rw [← frame.normData_le_iff present]
    simp only [List.forall_mem_cons, IsCount]
    constructor
    · intro counts
      omega
    · intro atMost
      refine ⟨by omega, by omega, by omega, by omega, by simp⟩
  unfold spectralDifferenceShifts CovarianceFits
  rw [List.forall_mem_append, first]
  refine and_congr_right fun _ => ?_
  split
  next both =>
      rw [← covariance_iff both.2]
      simp only [List.forall_mem_cons, both.1, both.2, false_or]
      constructor
      · intro counts
        exact counts.2.1
      · intro count
        refine ⟨?_, count, by simp⟩
        unfold IsCount covNorm
        split <;> omega
  next either =>
      have none : inst.varPause band = 0 ∨ inst.covMagnPause frame = 0 := by
        tauto
      simp only [List.not_mem_nil, false_implies, implies_true, true_iff]
      tauto

/-- The counts for the parametric estimate of the start-up. -/
theorem WellFormed.startup
    (wellFormed : inst.WellFormed band)
    (present : frame.maxWinData ≠ 0) :
    ∀ count ∈ inst.startupShifts frame, IsCount count := by
  have quantiles := (wellFormed.nextQuantiles present).qNoise
  have minNorm := wellFormed.lowerMinNorm frame
  have stages := band.stages_bounds
  have numerators :
      ∀ count ∈
        frame.numerators.flatMap fun numerator =>
          let nShifts := sat 6 (Agc.normU32 numerator.toNat) 0
          [nShifts, 6 - nShifts],
        IsCount count := by
    intro count member
    obtain ⟨numerator, -, inPair⟩ := List.mem_flatMap.mp member
    have saturated :
        0 ≤ sat 6 (Agc.normU32 numerator.toNat) 0 ∧
          sat 6 (Agc.normU32 numerator.toNat) 0 ≤ 6 := by
      unfold sat
      split_ifs <;> omega
    simp only [List.mem_cons, List.not_mem_nil, or_false] at inPair
    unfold IsCount
    omega
  unfold startupShifts
  split
  next =>
      simp only [List.forall_mem_append, List.forall_mem_cons]
      refine ⟨⟨?_, ?_, by simp⟩, numerators⟩
      all_goals
        unfold IsCount startupDomain
        omega
  next =>
      simp

/-- A shift either way has a count where it is small. -/
theorem isCount_eitherWay_iff (shift : Int) :
    IsCount (eitherWay shift) ↔ |shift| ≤ 31 := by
  unfold IsCount eitherWay
  rw [abs_le]
  split <;> omega

theorem WellFormed.priorSnr_iff
    (wellFormed : inst.WellFormed band)
    (present : frame.maxWinData ≠ 0) :
    (∀ count ∈ inst.priorSnrShifts frame, IsCount count) ↔
      inst.prevQMagn - 5 ≤ inst.noise.prevQNoise ∧
        inst.noise.prevQNoise ≤ inst.prevQMagn + 26 := by
  have qNoise := wellFormed.qNoise present
  have qMagn := frame.qMagn_bounds present
  have post : |6 + frame.qMagn - inst.qNoise frame| ≤ 31 := by
    rw [abs_le]
    omega
  unfold priorSnrShifts
  simp only [List.forall_mem_cons, isCount_eitherWay_iff, post, true_and]
  unfold IsCount
  constructor
  · rintro ⟨count, -⟩
    omega
  · intro near
    exact ⟨by omega, by simp⟩

theorem windowShifts_isCount (frame : AnalysisFrame band) :
    ∀ count ∈ windowShifts frame, IsCount count := by
  unfold windowShifts
  split
  next norm32 word isSome =>
      have atMost := normU32_le word.toNat
      split
      next =>
          simp
      next =>
          simp only [List.forall_mem_singleton, IsCount]
          omega
  next =>
      simp

theorem WellFormed.noiseUpdate_iff
    (wellFormed : inst.WellFormed band)
    (present : frame.maxWinData ≠ 0) :
    (∀ count ∈ inst.noiseUpdateShifts frame, IsCount count) ↔
      |inst.noise.prevQNoise - frame.qMagn| ≤ 31 := by
  have prevQMagn := wellFormed.prevQMagn
  have qMagn := frame.qMagn_bounds present
  have pause : |-(inst.prevQMagn - frame.qMagn)| ≤ 31 := by
    rw [abs_le]
    omega
  unfold noiseUpdateShifts
  simp only [List.forall_mem_append, List.forall_mem_cons,
    isCount_eitherWay_iff, pause, true_and]
  unfold NoiseEstimate.postShifts AnalysisFrame.noiseFrame
  dsimp only
  constructor
  · rintro ⟨⟨near, -⟩, -⟩
    exact near
  · intro near
    refine ⟨⟨near, by simp⟩, ?_⟩
    split
    next upward =>
        simp only [List.forall_mem_cons, IsCount]
        exact ⟨by omega, by omega, by simp⟩
    next =>
        simp

/-- The counts of step 3, where the noise is in a domain near the spectrum. -/
theorem gainShifts_isCount
    (near : |inst.noise.prevQNoise - frame.qMagn| ≤ 31) :
    ∀ count ∈ inst.gainShifts frame, IsCount count := by
  rw [abs_le] at near
  unfold gainShifts
  dsimp only
  rw [List.forall_mem_append]
  constructor
  · split_ifs
    all_goals
      rw [List.forall_mem_singleton]
      unfold IsCount
      omega
  · intro count member
    obtain ⟨magnNoise, -, inBin⟩ := List.mem_flatMap.mp member
    unfold nearSnrShifts at inBin
    split at inBin
    next =>
        have atMost := normU32_le (magnNoise.1 - magnNoise.2)
        simp only [List.mem_cons, List.not_mem_nil, or_false] at inBin
        unfold IsCount
        omega
    next =>
        exact absurd inBin List.not_mem_nil

theorem endShifts_isCount
    (inst : DomainCore)
    (frame : AnalysisFrame band) :
    ∀ count ∈ inst.endShifts frame, IsCount count := by
  have atMost := normU32_le ((inst.nextNoise frame).foldl max 0)
  have stages := band.stages_bounds
  unfold endShifts
  dsimp only
  rw [List.forall_mem_append]
  constructor
  · split
    all_goals
      rw [List.forall_mem_singleton]
      unfold IsCount
      omega
  · split
    next =>
        simp only [List.forall_mem_cons, IsCount]
        exact ⟨by omega, by omega, by simp⟩
    next =>
        simp

/-- The counts of `WebRtcNsx_ProcessCore` are those of shifts where the energy is and the
noise of the previous frames is in a domain near both spectra. -/
theorem WellFormed.processCoreShifts_iff
    (wellFormed : inst.WellFormed band)
    (present : frame.maxWinData ≠ 0) :
    (∀ count ∈ inst.processCoreShifts frame, IsCount count) ↔
      (∀ count ∈ inst.energyShifts frame, IsCount count) ∧
        (inst.prevQMagn - 5 ≤ inst.noise.prevQNoise ∧
          inst.noise.prevQNoise ≤ inst.prevQMagn + 26) ∧
        |inst.noise.prevQNoise - frame.qMagn| ≤ 31 := by
  unfold processCoreShifts
  simp only [List.forall_mem_append]
  rw [wellFormed.priorSnr_iff present, wellFormed.noiseUpdate_iff present]
  constructor
  · rintro ⟨⟨⟨⟨⟨⟨-, energy⟩, prior⟩, -⟩, update⟩, -⟩, -⟩
    exact ⟨energy, prior, update⟩
  · rintro ⟨energy, prior, update⟩
    exact
      ⟨⟨⟨⟨⟨⟨wellFormed.startup present, energy⟩, prior⟩,
        windowShifts_isCount frame⟩, update⟩, gainShifts_isCount update⟩,
        endShifts_isCount inst frame⟩

/-- The energy of a frame that is not tiny fits. -/
theorem energyShifts_isCount
    (present : frame.maxWinData ≠ 0)
    (loud : 4 ≤ frame.maxWinData) :
    ∀ count ∈ inst.energyShifts frame, IsCount count := by
  have small := (frame.normData_le_iff present).mpr loud
  have stages := band.stages_bounds
  unfold energyShifts
  split
  next =>
      rw [List.forall_mem_singleton]
      unfold IsCount
      omega
  next =>
      simp

/-- From domains in their ranges, the shifts of a frame are what they must be where it is
in range. -/
theorem WellFormed.kept_iff
    (wellFormed : inst.WellFormed band) :
    inst.Kept frame ↔ inst.InRange frame := by
  unfold Kept InRange
  rw [or_iff_not_imp_left]
  refine forall_congr' fun present => ?_
  constructor
  · intro kept
    obtain ⟨loud, covariance⟩ :=
      (spectralDifference_iff present).mp kept.spectralDifference
    obtain ⟨-, prior, update⟩ :=
      (wellFormed.processCoreShifts_iff present).mp kept.processCore
    exact
      { maxWinData := loud
        prevQMagn := prior
        qMagn := update
        covariance }
  · intro inRange
    exact
      { dataAnalysis := wellFormed.dataAnalysis present
        spectralDifference :=
          (spectralDifference_iff present).mpr
            ⟨inRange.maxWinData, inRange.covariance⟩
        processCore :=
          (wellFormed.processCoreShifts_iff present).mpr
            ⟨energyShifts_isCount present inRange.maxWinData,
              inRange.prevQMagn, inRange.qMagn⟩
        normData := frame.normData_le present
        minNorm := wellFormed.lowerMinNorm frame
        qMagn := frame.qMagn_bounds present
        qNoise := wellFormed.qNoise present
        prevQNoise := inRange.prevQMagn }

/-- Along every run from `WebRtcNsx_InitCore`, the shifts have counts that the language
defines as long as the frames are in range, and no longer. -/
theorem shifts_kept_iff
    (band : Band)
    (frames : List (AnalysisFrame band)) :
    AlongRun processCore Kept (initCore band) frames ↔
      AlongRun processCore InRange (initCore band) frames :=
  AlongRun.iff_of_invariant (WellFormed band)
    (fun wellFormed taken => wellFormed.processCore taken)
    (fun wellFormed => wellFormed.kept_iff)
    (.initCore band) frames

/-- A first block of 160 zeros at 16000 Hz but for a 1 at index 32: every magnitude is
64. -/
def unitImpulse : AnalysisFrame .wide where
  maxWinData := 1
  range := by decide
  bins := List.replicate 129 ⟨64, 239, by decide⟩
  size := List.length_replicate
  numerators := List.replicate 129 8192
  rescaled := none
  numBands := 1

/-- The energy of a frame whose windowed maximum is one is shifted by 35. -/
theorem not_shifts_kept_unitImpulse :
    ¬AlongRun processCore Kept (initCore .wide) [unitImpulse] := by
  intro along
  have kept := along.1 (by decide)
  have energy :
      2 * (unitImpulse.normData : Int) + Band.wide.stages - 1 ∈
        (initCore .wide).spectralDifferenceShifts unitImpulse :=
    List.mem_append_left _ (.tail _ (.tail _ (.head _)))
  exact absurd (kept.spectralDifference _ energy) (by decide)

end DomainCore

end ApmSdk.Nsx
