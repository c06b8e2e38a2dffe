import ApmSdk.BinarySpectra
import ApmSdk.CIntegers
import ApmSdk.StoreLoops

namespace ApmSdk.DelayEstimation

/-!
# The binary delay estimator

Each near-end spectrum is compared with all spectra of the far-end history, and the number of
bits that differ is smoothed for each delay.  The delay with the smallest mean is a candidate,
which is validated against earlier ones.  A read or a write outside of an array has no value.
What a `float` is and does is a parameter.
-/

open ArrayCopies StoreLoops

variable {Value : Type}

/-! ## Arrays with an `int` index -/

/-- `array[index]` -/
def load (array : List Value) (index : Int) : Option Value :=
  if 0 ≤ index then array[index.toNat]? else none

/-- `array[index] = value` -/
def write (array : List Value) (index : Int) (value : Value) :
    Option (List Value) :=
  if 0 ≤ index then store array index.toNat (some value) else none

/-- `memmove` of an array by one, with a value stored in front. -/
def pushFront (history : List Value) (size : Nat) (value : Value) :
    Option (List Value) := do
  let kept ← slice history 0 (size - 1)
  let history ← overwrite history 1 kept
  write history 0 value

/-! ## The far end -/

/-- `BinaryDelayEstimatorFarend` -/
structure Farend where
  farBitCounts : List Int
  binaryFarHistory : List UInt32
  historySize : Nat
deriving Repr, DecidableEq

namespace Farend

/-- `WebRtc_InitBinaryDelayEstimatorFarend` -/
def init (self : Farend) : Farend :=
  { self with
    binaryFarHistory := List.replicate self.historySize 0
    farBitCounts := List.replicate self.historySize 0 }

/-- What a soft reset does with one history. -/
def shiftHistory
    (history : List Value)
    (zero : Value)
    (historySize : Nat)
    (delayShift : Int) : Option (List Value) := do
  let absShift := delayShift.natAbs
  let shiftSize := historySize - absShift
  let destIndex := if 0 < delayShift then absShift else 0
  let srcIndex := if 0 < delayShift then 0 else absShift
  let paddingIndex := if 0 < delayShift then 0 else shiftSize
  let kept ← slice history srcIndex shiftSize
  let history ← overwrite history destIndex kept
  overwrite history paddingIndex (List.replicate absShift zero)

/-- `WebRtc_SoftResetBinaryDelayEstimatorFarend`, which asserts that some of the history
stays. -/
def softReset (self : Farend) (delayShift : Int) : Option Farend :=
  if self.historySize ≤ delayShift.natAbs then none
  else if delayShift = 0 then some self
  else do
    let binaryFarHistory ←
      shiftHistory self.binaryFarHistory 0 self.historySize delayShift
    let farBitCounts ←
      shiftHistory self.farBitCounts 0 self.historySize delayShift
    return { self with binaryFarHistory, farBitCounts }

/-- `WebRtc_AddBinaryFarSpectrum` -/
def addSpectrum (self : Farend) (binaryFarSpectrum : UInt32) :
    Option Farend := do
  let binaryFarHistory ←
    pushFront self.binaryFarHistory self.historySize binaryFarSpectrum
  let farBitCounts ←
    pushFront self.farBitCounts self.historySize
      (bitCount binaryFarSpectrum).toNat
  return { self with binaryFarHistory, farBitCounts }

end Farend

/-! ## The estimator -/

/-- The operations on `float` that the validation uses. -/
structure FloatOperations where
  Value : Type
  ofInt : Int → Value
  literal : Rat → Value
  add : Value → Value → Value
  sub : Value → Value → Value
  mul : Value → Value → Value
  less : Value → Value → Bool
  lessEqual : Value → Value → Bool

/-- `kMaxBitCountsQ9` -/
abbrev kMaxBitCountsQ9 : Int := 32 * 2 ^ 9

/-- `kShiftsAtZero` -/
abbrev kShiftsAtZero : Int := 13

/-- `kShiftsLinearSlope` -/
abbrev kShiftsLinearSlope : Int := 3

/-- `kProbabilityOffset` -/
abbrev kProbabilityOffset : Int := 1024

/-- `kProbabilityLowerLimit` -/
abbrev kProbabilityLowerLimit : Int := 8704

/-- `kProbabilityMinSpread` -/
abbrev kProbabilityMinSpread : Int := 2816

/-- `kMinRequiredHits` -/
abbrev kMinRequiredHits : Int := 10

/-- `kMaxHitsWhenPossiblyNonCausal` -/
abbrev kMaxHitsWhenPossiblyNonCausal : Int := 10

/-- `kMaxHitsWhenPossiblyCausal` -/
abbrev kMaxHitsWhenPossiblyCausal : Int := 1000

/-- `BinaryDelayEstimator` -/
structure Estimator (float : FloatOperations) where
  meanBitCounts : List Int
  bitCounts : List Int
  binaryNearHistory : List UInt32
  nearHistorySize : Nat
  historySize : Nat
  minimumProbability : Int
  lastDelayProbability : Int
  lastDelay : Int
  robustValidationEnabled : Bool
  allowedOffset : Int
  lastCandidateDelay : Int
  compareDelay : Int
  candidateHits : Int
  histogram : List float.Value
  lastDelayHistogram : float.Value
  lookahead : Int
  farend : Farend

/-- `BitCountComparison` -/
def bitCountComparison
    (binaryVector : UInt32)
    (binaryMatrix : List UInt32)
    (matrixSize : Nat)
    (bitCounts : List Int) : Option (List Int) :=
  storeAll id
    (fun n => do
      let row ← binaryMatrix[n]?
      return ((bitCount (binaryVector ^^^ row)).toNat : Int))
    bitCounts (List.range matrixSize)

/-- `WebRtc_MeanEstimatorFix` -/
def meanEstimatorFix (newValue : Int) (factor : Nat) (meanValue : Int) : Int :=
  let diff := newValue - meanValue
  let diff :=
    if diff < 0 then -((-diff) >>> factor) else diff >>> factor
  meanValue + diff

/-- What the loop over all delays finds in the means. -/
structure Found where
  candidateDelay : Int
  valueBestCandidate : Int
  valueWorstCandidate : Int
deriving Repr, DecidableEq

/-- The best and the worst of two delays, of which the first is of those before. -/
def Found.next (found : Found) (i : Nat) (mean : Int) : Found where
  candidateDelay :=
    if mean < found.valueBestCandidate then i else found.candidateDelay
  valueBestCandidate :=
    if mean < found.valueBestCandidate then mean
    else found.valueBestCandidate
  valueWorstCandidate :=
    if found.valueWorstCandidate < mean then mean
    else found.valueWorstCandidate

/-- The loop that finds the candidate. -/
def findCandidate (meanBitCounts : List Int) (historySize : Nat) :
    Option Found :=
  (List.range historySize).foldlM
    (fun found i => do
      let mean ← meanBitCounts[i]?
      return found.next i mean)
    ⟨-1, kMaxBitCountsQ9, 0⟩

namespace Estimator

variable {float : FloatOperations}
variable (self : Estimator float)

/-- `WebRtc_InitBinaryDelayEstimator` -/
def init : Estimator float :=
  { self with
    bitCounts := List.replicate self.historySize 0
    binaryNearHistory := List.replicate self.nearHistorySize 0
    meanBitCounts := List.replicate (self.historySize + 1) (20 * 2 ^ 9)
    histogram := List.replicate (self.historySize + 1) (float.literal 0)
    minimumProbability := kMaxBitCountsQ9
    lastDelayProbability := kMaxBitCountsQ9
    lastDelay := -2
    lastCandidateDelay := -2
    compareDelay := self.historySize
    candidateHits := 0
    lastDelayHistogram := float.literal 0 }

/-- `WebRtc_SoftResetBinaryDelayEstimator` -/
def softReset (delayShift : Int) : Estimator float :=
  let lookahead := int32 (self.lookahead - delayShift)
  let lookahead := if lookahead < 0 then 0 else lookahead
  let lookahead :=
    if (self.nearHistorySize : Int) - 1 < lookahead then
      (self.nearHistorySize : Int) - 1
    else lookahead
  { self with lookahead }

/-- The near-end spectrum that the lookahead delays, and the history with the current one. -/
def delayNear (binaryNearSpectrum : UInt32) :
    Option (List UInt32 × UInt32) :=
  if 1 < self.nearHistorySize then do
    let history ←
      pushFront self.binaryNearHistory self.nearHistorySize
        binaryNearSpectrum
    let delayed ← load history self.lookahead
    return (history, delayed)
  else some (self.binaryNearHistory, binaryNearSpectrum)

/-- The mean of one delay, smoothed where the far end has something to contribute. -/
def smoothOne
    (bitCounts : List Int)
    (meanBitCounts : List Int)
    (i : Nat) : Option (List Int) := do
  let bitCount ← bitCounts[i]?
  let farBitCount ← self.farend.farBitCounts[i]?
  if 0 < farBitCount then
    let shifts :=
      kShiftsAtZero - (kShiftsLinearSlope * farBitCount) >>> (4 : Nat)
    let mean ← meanBitCounts[i]?
    write meanBitCounts i
      (meanEstimatorFix (bitCount * 2 ^ 9) shifts.toNat mean)
  else some meanBitCounts

/-- The part of `WebRtc_ProcessBinarySpectrum` that finds the candidate. -/
def measure (binaryNearSpectrum : UInt32) :
    Option (Estimator float × Found) := do
  let (binaryNearHistory, delayed) ← self.delayNear binaryNearSpectrum
  let bitCounts ←
    bitCountComparison delayed self.farend.binaryFarHistory self.historySize
      self.bitCounts
  let meanBitCounts ←
    (List.range self.historySize).foldlM (self.smoothOne bitCounts)
      self.meanBitCounts
  let found ← findCandidate meanBitCounts self.historySize
  return ({ self with binaryNearHistory, bitCounts, meanBitCounts }, found)

/-- The thresholds after a candidate is found. -/
def updateProbabilities (found : Found) : Estimator float :=
  let valleyDepth := found.valueWorstCandidate - found.valueBestCandidate
  let minimumProbability :=
    if kProbabilityLowerLimit < self.minimumProbability ∧
        kProbabilityMinSpread < valleyDepth then
      let threshold := found.valueBestCandidate + kProbabilityOffset
      let threshold :=
        if threshold < kProbabilityLowerLimit then kProbabilityLowerLimit
        else threshold
      if threshold < self.minimumProbability then threshold
      else self.minimumProbability
    else self.minimumProbability
  { self with
    minimumProbability
    lastDelayProbability := int32 (self.lastDelayProbability + 1) }

/-- A bin that is not above `kHistogramMax`. -/
def limitHistogram (value : float.Value) : float.Value :=
  if float.less (float.literal 3000) value then float.literal 3000 else value

/-- What the histogram loses at one delay. -/
def decrease
    (candidateDelay : Int)
    (decreaseInLastSet valleyDepth : float.Value)
    (i : Int) : float.Value :=
  let isInLastSet :=
    self.lastDelay - 2 ≤ i ∧ i ≤ self.lastDelay + 1 ∧ i ≠ candidateDelay
  let isInCandidateSet := candidateDelay - 2 ≤ i ∧ i ≤ candidateDelay + 1
  float.add
    (float.mul decreaseInLastSet
      (float.ofInt (if isInLastSet then 1 else 0)))
    (float.mul valleyDepth
      (float.ofInt (if ¬ isInLastSet ∧ ¬ isInCandidateSet then 1 else 0)))

/-- How much is taken off near the last delay: until there are enough hits, the difference
between the levels at the last delay and at the candidate. -/
def decreaseInLastSet
    (candidateHits maxHitsForSlowChange valleyLevelQ14 : Int)
    (valleyDepth : float.Value) : Option float.Value :=
  if candidateHits < maxHitsForSlowChange then
    (load self.meanBitCounts self.compareDelay).map fun mean =>
      float.mul (float.ofInt (mean - valleyLevelQ14))
        (float.literal (1 / 2 ^ 14))
  else some valleyDepth

/-- The loop over the histogram, in which no bin goes below zero. -/
def lowerHistogram
    (candidateDelay : Int)
    (decreaseInLastSet valleyDepth : float.Value)
    (histogram : List float.Value) : Option (List float.Value) :=
  (List.range self.historySize).foldlM
    (fun histogram (i : Nat) => do
      let value ← histogram[i]?
      let value :=
        float.sub value
          (self.decrease candidateDelay decreaseInLastSet valleyDepth i)
      write histogram i
        (if float.less value (float.literal 0) then float.literal 0
        else value))
    histogram

/-- `UpdateRobustValidationStatistics` -/
def updateRobustValidationStatistics
    (candidateDelay valleyDepthQ14 valleyLevelQ14 : Int) :
    Option (Estimator float) := do
  let valleyDepth :=
    float.mul (float.ofInt valleyDepthQ14) (float.literal (1 / 2 ^ 14))
  let maxHitsForSlowChange :=
    if candidateDelay < self.lastDelay then kMaxHitsWhenPossiblyNonCausal
    else kMaxHitsWhenPossiblyCausal
  let candidateHits :=
    if candidateDelay ≠ self.lastCandidateDelay then 0
    else self.candidateHits
  let candidateHits := int32 (candidateHits + 1)
  let value ← load self.histogram candidateDelay
  let histogram ←
    write self.histogram candidateDelay
      (limitHistogram (float.add value valleyDepth))
  let decreaseInLastSet ←
    self.decreaseInLastSet candidateHits maxHitsForSlowChange valleyLevelQ14
      valleyDepth
  let histogram ←
    self.lowerHistogram candidateDelay decreaseInLastSet valleyDepth
      histogram
  return { self with
    lastCandidateDelay := candidateDelay
    candidateHits
    histogram }

/-- `HistogramBasedValidation` -/
def histogramBasedValidation (candidateDelay : Int) : Option Bool := do
  let kFractionSlope := float.literal (5 / 100)
  let kMinFractionWhenPossiblyCausal := float.literal (1 / 2)
  let kMinFractionWhenPossiblyNonCausal := float.literal (1 / 4)
  let kMinHistogramThreshold := float.literal (3 / 2)
  let one := float.literal 1
  let histogramThreshold ← load self.histogram self.compareDelay
  let delayDifference := candidateDelay - self.lastDelay
  let fraction :=
    if self.allowedOffset < delayDifference then
      let fraction :=
        float.sub one
          (float.mul kFractionSlope
            (float.ofInt (delayDifference - self.allowedOffset)))
      if float.less kMinFractionWhenPossiblyCausal fraction then fraction
      else kMinFractionWhenPossiblyCausal
    else if delayDifference < 0 then
      let fraction :=
        float.sub kMinFractionWhenPossiblyNonCausal
          (float.mul kFractionSlope (float.ofInt delayDifference))
      if float.less one fraction then one else fraction
    else one
  let histogramThreshold := float.mul histogramThreshold fraction
  let histogramThreshold :=
    if float.less kMinHistogramThreshold histogramThreshold then
      histogramThreshold
    else kMinHistogramThreshold
  let value ← load self.histogram candidateDelay
  return float.lessEqual histogramThreshold value ∧
    kMinRequiredHits < self.candidateHits

/-- `RobustValidation` -/
def robustValidation
    (candidateDelay : Int)
    (isInstantaneousValid isHistogramValid : Bool) : Option Bool := do
  let value ← load self.histogram candidateDelay
  let isRobust : Bool :=
    self.lastDelay < 0 ∧ (isInstantaneousValid ∨ isHistogramValid) ∨
      isInstantaneousValid ∧ isHistogramValid ∨
      isHistogramValid ∧ float.less self.lastDelayHistogram value
  return isRobust

/-- Whether a candidate is valid in the end. -/
def validate (candidateDelay : Int) (validCandidate : Bool) : Option Bool :=
  if self.robustValidationEnabled then do
    let isHistogramValid ← self.histogramBasedValidation candidateDelay
    self.robustValidation candidateDelay validCandidate isHistogramValid
  else some validCandidate

/-- The histogram with the compared bin no higher than that of the candidate. -/
def lowerCompared (value compared : float.Value) :
    Option (List float.Value) :=
  if float.less value compared then
    write self.histogram self.compareDelay value
  else some self.histogram

/-- The histogram and its level when the last delay changes. -/
def changeHistogram (candidateDelay : Int) : Option (Estimator float) := do
  let kLastHistogramMax := float.literal 250
  let value ← load self.histogram candidateDelay
  let compared ← load self.histogram self.compareDelay
  let lastDelayHistogram :=
    if float.less kLastHistogramMax value then kLastHistogramMax else value
  let histogram ← self.lowerCompared value compared
  return { self with lastDelayHistogram, histogram }

/-- The delay of a valid candidate becomes the last one. -/
def setLastDelay (found : Found) : Estimator float :=
  { self with
    lastDelay := found.candidateDelay
    lastDelayProbability :=
      if found.valueBestCandidate < self.lastDelayProbability then
        found.valueBestCandidate
      else self.lastDelayProbability
    compareDelay := found.candidateDelay }

/-- What a valid candidate changes. -/
def accept (found : Found) : Option (Estimator float) :=
  if found.candidateDelay ≠ self.lastDelay then
    (self.changeHistogram found.candidateDelay).map fun changed =>
      changed.setLastDelay found
  else some (self.setLastDelay found)

/-- A candidate that is not valid changes nothing more. -/
def acceptIf (validCandidate : Bool) (found : Found) :
    Option (Estimator float) :=
  if validCandidate then self.accept found else some self

/-- The part of `WebRtc_ProcessBinarySpectrum` behind the candidate. -/
def decideDelay (found : Found) : Option (Estimator float × Int) := do
  let self := self.updateProbabilities found
  let valleyDepth := found.valueWorstCandidate - found.valueBestCandidate
  let validCandidate : Bool :=
    kProbabilityOffset < valleyDepth ∧
      (found.valueBestCandidate < self.minimumProbability ∨
        found.valueBestCandidate < self.lastDelayProbability)
  let self ←
    self.updateRobustValidationStatistics found.candidateDelay valleyDepth
      found.valueBestCandidate
  let validCandidate ← self.validate found.candidateDelay validCandidate
  let self ← self.acceptIf validCandidate found
  return (self, self.lastDelay)

/-- `WebRtc_ProcessBinarySpectrum` -/
def processBinarySpectrum (binaryNearSpectrum : UInt32) :
    Option (Estimator float × Int) :=
  if self.farend.historySize ≠ self.historySize then some (self, -1)
  else do
    let (self, found) ← self.measure binaryNearSpectrum
    self.decideDelay found

end Estimator

end ApmSdk.DelayEstimation
