import ApmSdk.FeatureExtraction
import ApmSdk.LabelledPath
import ApmSdk.Normalisation
import Mathlib.Tactic.IntervalCases

namespace ApmSdk.Nsx

/-!
# The prior probability of speech

`WebRtcNsx_SpeechNoiseProb` maps each of the three features to an indicator between zero
and one, by a table of a sigmoid, and averages their weighted sum over the frames.  A read
outside of the table has no value here, so that a call that makes one does not return.
-/

/-- `kIndicatorTable` -/
def kIndicatorTable : List Int :=
  [0, 2017, 3809, 5227, 6258, 6963, 7424, 7718, 7901, 8014, 8084, 8126, 8152,
    8168, 8177, 8183, 8187]

/-- A read of the table. -/
def indicatorAt (index : Int) : Option Int :=
  if 0 ≤ index then kIndicatorTable[index.toNat]? else none

/-- `PRIOR_UPDATE_Q14` -/
abbrev priorUpdateQ14 : Int := 1638

/-- The sigmoid between two entries of the table. -/
def sigmoid (rounding tableIndex position : Int) : Option Int := do
  let tmp16no2 ← indicatorAt tableIndex
  let neighbour ← indicatorAt (tableIndex + 1)
  let tmp16no1 := int16 (neighbour - tmp16no2)
  let frac := int16 (position % 2 ^ 14)
  return int16
    (tmp16no2 + int16 ((tmp16no1 * frac + rounding) >>> (14 : Nat)))

/-- `tmpIndFX`: an indicator is saturated where the code does not look it up. -/
def indicator
    (inTable pause : Prop)
    [Decidable inTable]
    [Decidable pause]
    (rounding tableIndex position : Int) : Option Int :=
  if inTable then do
    let tmp16no2 ← sigmoid rounding tableIndex position
    return if pause then int16 (8192 - tmp16no2) else int16 (8192 + tmp16no2)
  else some (if pause then 0 else 16384)

/-- An indicator that is only computed if its feature has a weight. -/
def whenWeighted (weight : Int) (value : Option Int) : Option Int :=
  if weight ≠ 0 then value else some 0

/-- The three indicators; a feature without a weight has none, which counts as zero. -/
structure Indicators where
  logLrt : Int
  specFlat : Int
  specDiff : Int
deriving Repr, DecidableEq

namespace FeatureCore

/-- The indicator of the likelihood ratio. -/
def logLrtIndicator (inst : FeatureCore) (logLrtSum : Int) : Option Int :=
  let tmp32no1 := int32 (logLrtSum - inst.thresholdLogLrt)
  let pause := tmp32no1 < 0
  let nShifts : Int := 7 - inst.band.stages + (if pause then 1 else 0)
  let tmp32no1 :=
    Agc.shiftW32 (if pause then int32 (-tmp32no1) else tmp32no1) nShifts
  let tableIndex := int16 (tmp32no1 >>> (14 : Nat))
  indicator (tableIndex < 16 ∧ 0 ≤ tableIndex) pause 0 tableIndex tmp32no1

/-- The indicator of the spectral flatness. -/
def specFlatIndicator (inst : FeatureCore) : Option Int :=
  let tmpU32no1 := uint32 (inst.featureSpecFlat * 400)
  let pause := inst.thresholdSpecFlat < tmpU32no1
  let tmpU32no2 :=
    if pause then uint32 (tmpU32no1 - inst.thresholdSpecFlat)
    else uint32 (inst.thresholdSpecFlat - tmpU32no1)
  let nShifts := if pause then 5 else 4
  let tmpU32no1 := Aecm.divU32U16 (uint32 (tmpU32no2 * 2 ^ nShifts)) 25
  let tableIndex := int16 (tmpU32no1 >>> (14 : Nat))
  indicator (tableIndex < 16) pause 0 tableIndex tmpU32no1

/-- `normTmp` for the spectral difference. -/
def specDiffNorm (inst : FeatureCore) : Nat :=
  min (20 - inst.band.stages) (Agc.normU32 inst.featureSpecDiff)

/-- The spectral difference relative to the average energy. -/
def relativeSpecDiff (inst : FeatureCore) : Int :=
  if inst.featureSpecDiff ≠ 0 then
    let normTmp := inst.specDiffNorm
    let tmpU32no1 := uint32 (inst.featureSpecDiff * 2 ^ normTmp)
    let tmpU32no2 :=
      inst.timeAvgMagnEnergy >>> (20 - inst.band.stages - normTmp)
    if 0 < tmpU32no2 then tmpU32no1 / tmpU32no2 else 0x7fffffff
  else 0

/-- The indicator of the spectral difference. -/
def specDiffIndicator (inst : FeatureCore) : Option Int :=
  let tmpU32no1 := inst.relativeSpecDiff
  let tmpU32no3 := uint32 (inst.thresholdSpecDiff * 2 ^ 17) / 25
  let tmpU32no2 := uint32 (tmpU32no1 - tmpU32no3)
  let pause := 2 ^ 31 ≤ tmpU32no2
  let tmpU32no1 :=
    if pause then uint32 (tmpU32no3 - tmpU32no1) else tmpU32no2 >>> (1 : Nat)
  let tableIndex := int16 (tmpU32no1 >>> (14 : Nat))
  indicator (tableIndex < 16) pause (2 ^ 13) tableIndex tmpU32no1

/-- The prior probability, moved towards that of the indicators. -/
def updatePrior (inst : FeatureCore) (indicators : Indicators) : Int :=
  let indPriorFX :=
    int32
      (inst.weightLogLrt * indicators.logLrt +
        inst.weightSpecFlat * indicators.specFlat +
        inst.weightSpecDiff * indicators.specDiff)
  let indPriorFX16 := divW32W16ResW16 (int32 (98307 - indPriorFX)) 6
  let tmp16 := int16 (indPriorFX16 - inst.priorNonSpeechProb)
  int16
    (inst.priorNonSpeechProb +
      int16 ((priorUpdateQ14 * tmp16) >>> (14 : Nat)))

/-- `WebRtcNsx_SpeechNoiseProb`, as far as the prior probability is concerned. -/
def speechNoiseProb
    (inst : FeatureCore)
    (logLrtSum : Int) : Option (Indicators × FeatureCore) := do
  let logLrt ← inst.logLrtIndicator logLrtSum
  let specFlat ← whenWeighted inst.weightSpecFlat inst.specFlatIndicator
  let specDiff ← whenWeighted inst.weightSpecDiff inst.specDiffIndicator
  let indicators : Indicators := ⟨logLrt, specFlat, specDiff⟩
  return (indicators,
      { inst with
        featureLogLrt :=
          int32 (logLrtSum * binSizeLrt) >>> (inst.band.stages + 11)
        priorNonSpeechProb := inst.updatePrior indicators })

/-- A frame that is not all zero. -/
def processCore
    (inst : FeatureCore)
    (frame : FrameFeatures) : Option FeatureCore := do
  let result ← (inst.measure frame).speechNoiseProb frame.logLrtSum
  return result.2

/-! ## What a frame must do -/

/-- A probability in Q14. -/
def IsProbability (value : Int) : Prop :=
  0 ≤ value ∧ value ≤ 16384

/-- Every read of a frame is in the table, and the indicators and the prior probability
are probabilities. -/
def FrameKept (inst : FeatureCore) (frame : FrameFeatures) : Prop :=
  ∃ indicators next,
    (inst.measure frame).speechNoiseProb frame.logLrtSum =
        some (indicators, next) ∧
      IsProbability indicators.logLrt ∧ IsProbability indicators.specFlat ∧
      IsProbability indicators.specDiff ∧
      IsProbability next.priorNonSpeechProb

/-- The spectral difference has no weight, or it is not too large relative to the average
energy, in the common domain, or so large that its index comes back into the table. -/
def SpecDiffInRange (inst : FeatureCore) : Prop :=
  let threshold := inst.thresholdSpecDiff * 2 ^ 17 / 25
  let difference := inst.featureSpecDiff * 2 ^ inst.specDiffNorm
  let energy :=
    inst.timeAvgMagnEnergy / 2 ^ (20 - inst.band.stages - inst.specDiffNorm)
  inst.weightSpecDiff = 0 ∨ inst.featureSpecDiff = 0 ∨
    difference < (2 ^ 30 + threshold) * energy ∨
      energy = 1 ∧ 2 ^ 31 + threshold ≤ difference ∧
        (2 ^ 32 + threshold - difference) % 2 ^ 30 < 2 ^ 29

/-- The spectral difference of a frame, once it is measured, is in range. -/
def FrameInRange (inst : FeatureCore) (frame : FrameFeatures) : Prop :=
  (inst.measure frame).SpecDiffInRange

end FeatureCore

/-! ## The table -/

/-- The table grows from 0 to 8187. -/
theorem indicatorAt_entry
    {index : Int}
    (inTable : 0 ≤ index ∧ index < 16) :
    ∃ entry neighbour,
      indicatorAt index = some entry ∧
        indicatorAt (index + 1) = some neighbour ∧
          0 ≤ entry ∧ entry ≤ neighbour ∧ neighbour ≤ 8187 := by
  obtain ⟨lower, upper⟩ := inTable
  interval_cases index <;> exact ⟨_, _, rfl, rfl, by decide⟩

/-- Inside of the table the sigmoid is between its entries. -/
theorem sigmoid_inTable
    {rounding tableIndex : Int}
    (roundingRange : 0 ≤ rounding ∧ rounding < 2 ^ 14)
    (inTable : 0 ≤ tableIndex ∧ tableIndex < 16)
    (position : Int) :
    ∃ value,
      sigmoid rounding tableIndex position = some value ∧
        0 ≤ value ∧ value ≤ 8187 := by
  obtain ⟨entry, neighbour, here, there, lower, ordered, upper⟩ :=
    indicatorAt_entry inTable
  refine ⟨_, by rw [sigmoid, here, there]; rfl, ?_⟩
  have difference : int16 (neighbour - entry) = neighbour - entry :=
    int16_of_bounds (by omega) (by omega)
  have frac : int16 (position % 2 ^ 14) = position % 2 ^ 14 :=
    int16_of_bounds (by omega) (by omega)
  rw [difference, frac, Int.shiftRight_eq_div_pow]
  have share :
      (neighbour - entry) * (position % 2 ^ 14) ≤
        (neighbour - entry) * (2 ^ 14 - 1) :=
    mul_le_mul_of_nonneg_left (by omega) (by omega)
  have nonneg : 0 ≤ (neighbour - entry) * (position % 2 ^ 14) :=
    mul_nonneg (by omega) (by omega)
  generalize (neighbour - entry) * (position % 2 ^ 14) = part at share nonneg ⊢
  have inner :
      int16 ((part + rounding) / (2 ^ 14 : Nat)) = (part + rounding) / 2 ^ 14 := by
    rw [Nat.cast_pow, Nat.cast_ofNat]
    exact int16_of_bounds (by omega) (by omega)
  rw [inner, int16_of_bounds (by omega) (by omega)]
  omega

/-- An indicator that is looked up inside of the table, or not at all, is a probability. -/
theorem indicator_isProbability
    {inTable pause : Prop}
    [Decidable inTable]
    [Decidable pause]
    {rounding tableIndex : Int}
    (roundingRange : 0 ≤ rounding ∧ rounding < 2 ^ 14)
    (inside : inTable → 0 ≤ tableIndex ∧ tableIndex < 16)
    (position : Int) :
    ∃ value,
      indicator inTable pause rounding tableIndex position = some value ∧
        FeatureCore.IsProbability value := by
  unfold indicator FeatureCore.IsProbability
  split
  next lookedUp =>
      obtain ⟨value, found, lower, upper⟩ :=
        sigmoid_inTable roundingRange (inside lookedUp) position
      refine ⟨_, by rw [found]; rfl, ?_⟩
      split
      next =>
          rw [int16_of_bounds (by omega) (by omega)]
          omega
      next =>
          rw [int16_of_bounds (by omega) (by omega)]
          omega
  next =>
      refine ⟨_, rfl, ?_⟩
      split <;> decide

/-- A negative index has no value. -/
theorem indicator_outside
    {inTable pause : Prop}
    [Decidable inTable]
    [Decidable pause]
    {rounding tableIndex position : Int}
    (lookedUp : inTable)
    (negative : tableIndex < 0) :
    indicator inTable pause rounding tableIndex position = none := by
  unfold indicator sigmoid indicatorAt
  rw [if_pos lookedUp, if_neg (by omega)]
  rfl

/-- An indicator with a value is a probability. -/
theorem isProbability_of_indicator
    {inTable pause : Prop}
    [Decidable inTable]
    [Decidable pause]
    {rounding tableIndex position value : Int}
    (roundingRange : 0 ≤ rounding ∧ rounding < 2 ^ 14)
    (below : inTable → tableIndex < 16)
    (found :
      indicator inTable pause rounding tableIndex position = some value) :
    FeatureCore.IsProbability value := by
  by_cases outside : inTable ∧ tableIndex < 0
  · rw [indicator_outside outside.1 outside.2] at found
    contradiction
  · obtain ⟨other, same, isProbability⟩ :
        ∃ other,
          indicator inTable pause rounding tableIndex position =
              some other ∧
            FeatureCore.IsProbability other :=
      indicator_isProbability roundingRange
        (fun lookedUp =>
          ⟨not_lt.mp fun negative => outside ⟨lookedUp, negative⟩,
            below lookedUp⟩) position
    rw [found] at same
    obtain rfl := Option.some.inj same
    exact isProbability

/-- So is one that is only computed with a weight. -/
theorem isProbability_of_whenWeighted
    {weight value : Int}
    {computed : Option Int}
    (isProbability :
      computed = some value → FeatureCore.IsProbability value)
    (found : whenWeighted weight computed = some value) :
    FeatureCore.IsProbability value := by
  unfold whenWeighted at found
  split at found
  next =>
      exact isProbability found
  next =>
      obtain rfl := Option.some.inj found
      exact ⟨by decide, by decide⟩

theorem exists_whenWeighted
    {weight : Int}
    {computed : Option Int}
    (found : weight ≠ 0 → ∃ value, computed = some value) :
    ∃ value, whenWeighted weight computed = some value := by
  unfold whenWeighted
  split
  next weighted =>
      exact found weighted
  next =>
      exact ⟨0, rfl⟩

theorem int16_nonneg_iff (value : Int) :
    0 ≤ int16 value ↔ value % 2 ^ 16 < 2 ^ 15 := by
  unfold int16
  rw [Int.bmod_def]
  split <;> omega

/-- The sign of the index of a difference between two words, the second of which is
small. -/
theorem diffIndex_nonneg_iff
    {word threshold : Int}
    (wordRange : 0 ≤ word ∧ word < 2 ^ 32)
    (small : 0 ≤ threshold ∧ threshold < 2 ^ 29) :
    0 ≤ int16
          ((if 2 ^ 31 ≤ uint32 (word - threshold) then
              uint32 (threshold - word)
            else uint32 (word - threshold) >>> (1 : Nat)) >>> (14 : Nat)) ↔
      word < 2 ^ 30 + threshold ∨
        2 ^ 31 + threshold ≤ word ∧
          (2 ^ 32 + threshold - word) % 2 ^ 30 < 2 ^ 29 := by
  rw [int16_nonneg_iff]
  unfold uint32
  simp only [Int.shiftRight_eq_div_pow, Nat.cast_pow, Nat.cast_ofNat]
  split
  next =>
      omega
  next =>
      omega

namespace FeatureCore

variable {inst next : FeatureCore} {frame : FrameFeatures}

/-! ## The indicators -/

/-- The code tests the index of the likelihood ratio on both sides. -/
theorem logLrtIndicator_isProbability (logLrtSum : Int) :
    ∃ value,
      inst.logLrtIndicator logLrtSum = some value ∧ IsProbability value :=
  indicator_isProbability (by decide) (fun inside => inside.symm) _

/-- The index of the flatness is at most 10485, so that it does not become negative. -/
theorem specFlatIndicator_isProbability :
    ∃ value, inst.specFlatIndicator = some value ∧ IsProbability value := by
  have index
      (word : Int) :
      0 ≤ int16 (Aecm.divU32U16 (uint32 word) 25 >>> (14 : Nat)) := by
    unfold Aecm.divU32U16 uint32
    rw [if_pos (by decide), Int.shiftRight_eq_div_pow, Nat.cast_pow,
      Nat.cast_ofNat, int16_of_bounds (by omega) (by omega)]
    omega
  exact
    indicator_isProbability (by decide) (fun inside => ⟨index _, inside⟩) _

/-- The relative spectral difference is the quotient of the two words. -/
theorem WellFormed.relativeSpecDiff_eq
    (wellFormed : inst.WellFormed)
    (present : inst.featureSpecDiff ≠ 0) :
    let energy :=
      inst.timeAvgMagnEnergy / 2 ^ (20 - inst.band.stages - inst.specDiffNorm)
    inst.relativeSpecDiff =
        (if 0 < energy then
          inst.featureSpecDiff * 2 ^ inst.specDiffNorm / energy
        else 0x7fffffff) ∧
      0 ≤ energy ∧ 0 ≤ inst.featureSpecDiff * 2 ^ inst.specDiffNorm ∧
        inst.featureSpecDiff * 2 ^ inst.specDiffNorm < 2 ^ 32 := by
  obtain ⟨lower, upper⟩ := wellFormed.featureSpecDiff
  have nonneg : 0 ≤ inst.featureSpecDiff * 2 ^ inst.specDiffNorm := by
    positivity
  have fits : inst.featureSpecDiff * 2 ^ inst.specDiffNorm < 2 ^ 32 :=
    lt_of_le_of_lt
      (mul_le_mul_of_nonneg_left
        (pow_le_pow_right₀ (by decide) (min_le_right ..)) lower)
      (normU32_fits ⟨lower, upper⟩)
  refine ⟨?_, ?_, nonneg, fits⟩
  · unfold relativeSpecDiff uint32
    rw [if_pos present]
    dsimp only
    rw [Int.emod_eq_of_lt nonneg fits, Int.shiftRight_eq_div_pow,
      Nat.cast_pow, Nat.cast_ofNat]
  · exact Int.ediv_nonneg wellFormed.timeAvgMagnEnergy.1 (by positivity)

/-- The relative spectral difference is a word of 32 bits. -/
theorem WellFormed.relativeSpecDiff_range (wellFormed : inst.WellFormed) :
    0 ≤ inst.relativeSpecDiff ∧ inst.relativeSpecDiff < 2 ^ 32 := by
  by_cases present : inst.featureSpecDiff = 0
  · unfold relativeSpecDiff
    rw [if_neg (not_not.mpr present)]
    decide
  · have quotient := wellFormed.relativeSpecDiff_eq present
    dsimp only at quotient
    obtain ⟨relative, energyNonneg, nonneg, fits⟩ := quotient
    rw [relative]
    split
    next =>
        exact
          ⟨Int.ediv_nonneg nonneg energyNonneg,
            lt_of_le_of_lt (Int.ediv_le_self _ nonneg) fits⟩
    next =>
        decide

/-- The index of the spectral difference is not negative. -/
def SpecDiffIndexed (inst : FeatureCore) : Prop :=
  let threshold := inst.thresholdSpecDiff * 2 ^ 17 / 25
  inst.relativeSpecDiff < 2 ^ 30 + threshold ∨
    2 ^ 31 + threshold ≤ inst.relativeSpecDiff ∧
      (2 ^ 32 + threshold - inst.relativeSpecDiff) % 2 ^ 30 < 2 ^ 29

/-- The conditions on the features and on the index agree. -/
theorem WellFormed.specDiffInRange_iff
    (wellFormed : inst.WellFormed)
    (weighted : inst.weightSpecDiff ≠ 0) :
    inst.SpecDiffInRange ↔ inst.SpecDiffIndexed := by
  obtain ⟨lower, upper⟩ := wellFormed.thresholdSpecDiff
  unfold SpecDiffInRange SpecDiffIndexed
  dsimp only
  by_cases present : inst.featureSpecDiff = 0
  · have relative : inst.relativeSpecDiff = 0 := by
      unfold relativeSpecDiff
      rw [if_neg (not_not.mpr present)]
    rw [relative]
    exact ⟨fun _ => .inl (by omega), fun _ => .inr (.inl present)⟩
  · have quotient := wellFormed.relativeSpecDiff_eq present
    dsimp only at quotient
    obtain ⟨relative, energyNonneg, differenceNonneg, differenceFits⟩ :=
      quotient
    rw [relative]
    simp only [weighted, present, false_or]
    generalize
      inst.timeAvgMagnEnergy /
        2 ^ (20 - inst.band.stages - inst.specDiffNorm) = energy
      at energyNonneg ⊢
    generalize inst.featureSpecDiff * 2 ^ inst.specDiffNorm = difference
      at differenceNonneg differenceFits ⊢
    split
    next positive =>
        refine or_congr (Int.ediv_lt_iff_lt_mul positive).symm ?_
        constructor
        · rintro ⟨rfl, large⟩
          rwa [Int.ediv_one]
        · rintro ⟨large, index⟩
          -- with two units of energy the quotient has 31 bits
          have product := Int.mul_le_of_le_ediv positive large
          have isOne : energy = 1 := by
            by_contra several
            have twice :
                2 ^ 31 * 2 ≤
                  (2 ^ 31 + inst.thresholdSpecDiff * 2 ^ 17 / 25) * energy :=
              mul_le_mul (by omega) (by omega) (by decide) (by omega)
            omega
          rw [isOne, Int.ediv_one] at large index
          exact ⟨isOne, large, index⟩
    next silent =>
        have none : energy = 0 := by
          omega
        rw [none]
        omega

/-- The spectral difference has an indicator, which is a probability, exactly if its index
is not negative. -/
theorem WellFormed.specDiffIndicator_iff (wellFormed : inst.WellFormed) :
    (∃ value,
        inst.specDiffIndicator = some value ∧ IsProbability value) ↔
      inst.SpecDiffIndexed := by
  obtain ⟨lower, upper⟩ := wellFormed.thresholdSpecDiff
  have range := wellFormed.relativeSpecDiff_range
  unfold specDiffIndicator SpecDiffIndexed
  dsimp only
  have threshold :
      uint32 (inst.thresholdSpecDiff * 2 ^ 17) / 25 =
        inst.thresholdSpecDiff * 2 ^ 17 / 25 := by
    unfold uint32
    rw [Int.emod_eq_of_lt (by omega) (by omega)]
  have small :
      0 ≤ inst.thresholdSpecDiff * 2 ^ 17 / 25 ∧
        inst.thresholdSpecDiff * 2 ^ 17 / 25 < 2 ^ 29 := by
    omega
  rw [threshold, ← diffIndex_nonneg_iff range small]
  constructor
  · rintro ⟨value, found, -⟩
    by_contra negative
    rw [indicator_outside (by omega) (not_le.mp negative)] at found
    contradiction
  · intro nonneg
    exact
      indicator_isProbability (by decide) (fun inside => ⟨nonneg, inside⟩) _

/-! ## The prior probability -/

/-- A probability that moves a tenth towards another one stays a probability. -/
theorem movePrior_isProbability
    {prior average : Int}
    (priorRange : IsProbability prior)
    (averageRange : IsProbability average) :
    IsProbability
      (int16
        (prior +
          int16 ((priorUpdateQ14 * int16 (average - prior)) >>> (14 : Nat)))) := by
  obtain ⟨priorLower, priorUpper⟩ := priorRange
  obtain ⟨averageLower, averageUpper⟩ := averageRange
  have distance : int16 (average - prior) = average - prior :=
    int16_of_bounds (by omega) (by omega)
  simp only [distance, priorUpdateQ14, Int.shiftRight_eq_div_pow,
    Nat.cast_pow, Nat.cast_ofNat]
  have step :
      int16 (1638 * (average - prior) / 2 ^ 14) =
        1638 * (average - prior) / 2 ^ 14 :=
    int16_of_bounds (by omega) (by omega)
  rw [step, int16_of_bounds (by omega) (by omega)]
  exact ⟨by omega, by omega⟩

/-- The average of probabilities is one, and the prior probability moves towards it. -/
theorem WellFormed.updatePrior_isProbability
    (wellFormed : inst.WellFormed)
    {indicators : Indicators}
    (logLrt : IsProbability indicators.logLrt)
    (specFlat : IsProbability indicators.specFlat)
    (specDiff : IsProbability indicators.specDiff) :
    IsProbability (inst.updatePrior indicators) := by
  have weights := wellFormed.weights
  have share
      {weight value : Int}
      (nonneg : 0 ≤ weight)
      (isProbability : IsProbability value) :
      0 ≤ weight * value ∧ weight * value ≤ weight * 16384 :=
    ⟨mul_nonneg nonneg isProbability.1,
      mul_le_mul_of_nonneg_left isProbability.2 nonneg⟩
  have logLrtShare := share wellFormed.weightLogLrt logLrt
  have specFlatShare := share wellFormed.weightSpecFlat specFlat
  have specDiffShare := share wellFormed.weightSpecDiff specDiff
  have total :
      0 ≤ inst.weightLogLrt * indicators.logLrt +
          inst.weightSpecFlat * indicators.specFlat +
          inst.weightSpecDiff * indicators.specDiff ∧
        inst.weightLogLrt * indicators.logLrt +
          inst.weightSpecFlat * indicators.specFlat +
          inst.weightSpecDiff * indicators.specDiff ≤ 98304 := by
    omega
  unfold updatePrior
  dsimp only
  generalize
    inst.weightLogLrt * indicators.logLrt +
      inst.weightSpecFlat * indicators.specFlat +
      inst.weightSpecDiff * indicators.specDiff = indPriorFX
    at total ⊢
  refine movePrior_isProbability wellFormed.priorNonSpeechProb ?_
  have sum : int32 indPriorFX = indPriorFX :=
    int32_of_bounds (by omega) (by omega)
  unfold divW32W16ResW16
  rw [sum, if_pos (by decide), int32_of_bounds (by omega) (by omega),
    Int.tdiv_eq_ediv_of_nonneg (by omega),
    int16_of_bounds (by omega) (by omega)]
  exact ⟨by omega, by omega⟩

/-! ## Frames and runs -/

/-- What a call that returns leaves. -/
theorem WellFormed.speechNoiseProb
    (wellFormed : inst.WellFormed)
    {logLrtSum : Int}
    {indicators : Indicators}
    (returned :
      inst.speechNoiseProb logLrtSum = some (indicators, next)) :
    IsProbability indicators.logLrt ∧ IsProbability indicators.specFlat ∧
      IsProbability indicators.specDiff ∧ next.WellFormed := by
  unfold FeatureCore.speechNoiseProb at returned
  simp only [Option.bind_eq_bind, Option.bind_eq_some_iff] at returned
  obtain ⟨logLrt, logLrtFound, specFlat, specFlatFound, specDiff,
    specDiffFound, result⟩ := returned
  obtain ⟨rfl, rfl⟩ := Prod.mk.inj (Option.some.inj result)
  have logLrtRange : IsProbability logLrt :=
    isProbability_of_indicator (by decide) And.left logLrtFound
  have specFlatRange : IsProbability specFlat :=
    isProbability_of_whenWeighted
      (isProbability_of_indicator (by decide) id) specFlatFound
  have specDiffRange : IsProbability specDiff :=
    isProbability_of_whenWeighted
      (isProbability_of_indicator (by decide) id) specDiffFound
  exact
    ⟨logLrtRange, specFlatRange, specDiffRange,
      { wellFormed with
        priorNonSpeechProb :=
          wellFormed.updatePrior_isProbability logLrtRange specFlatRange
            specDiffRange }⟩

/-- A frame is what it must be where the spectral difference is in range, and nowhere
else. -/
theorem WellFormed.frameKept_iff (wellFormed : inst.WellFormed) :
    FrameKept inst frame ↔ FrameInRange inst frame := by
  have measured := wellFormed.measure frame
  unfold FrameKept FrameInRange
  constructor
  · rintro ⟨indicators, next, returned, -⟩
    by_cases weighted : (inst.measure frame).weightSpecDiff = 0
    · exact .inl weighted
    · rw [measured.specDiffInRange_iff weighted,
        ← measured.specDiffIndicator_iff]
      unfold FeatureCore.speechNoiseProb at returned
      simp only [Option.bind_eq_bind, Option.bind_eq_some_iff] at returned
      obtain ⟨-, -, -, -, specDiff, found, -⟩ := returned
      rw [whenWeighted, if_pos weighted] at found
      exact ⟨specDiff, found, isProbability_of_indicator (by decide) id found⟩
  · intro inRange
    have returned :
        ∃ result,
          (inst.measure frame).speechNoiseProb frame.logLrtSum =
            some result := by
      obtain ⟨logLrt, logLrtFound, -⟩ :=
        (inst.measure frame).logLrtIndicator_isProbability frame.logLrtSum
      have specFlatFound :=
        exists_whenWeighted fun _ : (inst.measure frame).weightSpecFlat ≠ 0 =>
          (inst.measure frame).specFlatIndicator_isProbability.imp
            fun _ => And.left
      have specDiffFound :=
        exists_whenWeighted
          fun weighted : (inst.measure frame).weightSpecDiff ≠ 0 =>
            (measured.specDiffIndicator_iff.mpr
              ((measured.specDiffInRange_iff weighted).mp inRange)).imp
                fun _ => And.left
      obtain ⟨specFlat, specFlatFound⟩ := specFlatFound
      obtain ⟨specDiff, specDiffFound⟩ := specDiffFound
      unfold FeatureCore.speechNoiseProb
      rw [logLrtFound, specFlatFound, specDiffFound]
      exact ⟨_, rfl⟩
    obtain ⟨⟨indicators, next⟩, returned⟩ := returned
    obtain ⟨logLrt, specFlat, specDiff, nextFormed⟩ :=
      measured.speechNoiseProb returned
    exact
      ⟨indicators, next, returned, logLrt, specFlat, specDiff,
        nextFormed.priorNonSpeechProb⟩

/-- A frame that returns leaves well-formed features. -/
theorem WellFormed.processCore
    (wellFormed : inst.WellFormed)
    (taken : inst.processCore frame = some next) :
    next.WellFormed := by
  unfold FeatureCore.processCore at taken
  simp only [Option.bind_eq_bind, Option.bind_eq_some_iff] at taken
  obtain ⟨⟨indicators, result⟩, returned, same⟩ := taken
  obtain rfl := Option.some.inj same
  exact ((wellFormed.measure frame).speechNoiseProb returned).2.2.2

/-- In every run of frames the table is read inside, and the indicators and the prior
probability are probabilities, exactly if the spectral difference of every frame is in
range. -/
theorem speechNoiseProb_kept_iff
    (band : Band)
    (frames : List FrameFeatures) :
    AlongRun processCore FrameKept (initCore band) frames ↔
      AlongRun processCore FrameInRange (initCore band) frames :=
  AlongRun.iff_of_invariant WellFormed
    (fun wellFormed taken => wellFormed.processCore taken)
    (fun wellFormed => wellFormed.frameKept_iff)
    (.initCore band) frames

/-! ## A loud frame after quiet ones -/

/-- A quiet frame: a bin is zero, one unit of energy, and the likelihood is that of
noise. -/
def quietFrame : FrameFeatures where
  spectralFlatness := none
  energy := 1
  difference := 0
  logLrtSum := -1000000

/-- A loud frame. -/
def loudFrame : FrameFeatures where
  spectralFlatness := none
  energy := 2 ^ 20
  difference := 2 ^ 25
  logLrtSum := 1000000

/-- The features within the first window, of quiet frames. -/
structure Quiet (frames : Nat) (inst : FeatureCore) : Prop where
  wellFormed : inst.WellFormed
  band : inst.band = .wide
  unweighted : inst.weightSpecDiff = 0
  blockIndex : inst.blockIndex = frames - 1
  cntThresUpdate : inst.cntThresUpdate = frames
  curAvgMagnEnergy : inst.curAvgMagnEnergy = frames
  timeAvgMagnEnergyTmp :
    frames ≤ 200 → inst.timeAvgMagnEnergyTmp = frames
  timeAvgMagnEnergy : 0 < frames → inst.timeAvgMagnEnergy = 1
  featureSpecDiff : inst.featureSpecDiff ≤ 50
  featureLogLrt : histParEst ≤ uint32 inst.featureLogLrt
  histLrt : inst.histLrt = List.replicate histParEst 0
  histSpecDiff :
    inst.histSpecDiff = (frames : Int) :: List.replicate 999 0

theorem Quiet.initCore : Quiet 0 (initCore .wide) where
  wellFormed := .initCore .wide
  band := rfl
  unweighted := rfl
  blockIndex := rfl
  cntThresUpdate := rfl
  curAvgMagnEnergy := rfl
  timeAvgMagnEnergyTmp := fun _ => rfl
  timeAvgMagnEnergy := by simp
  featureSpecDiff := by decide
  featureLogLrt := by decide
  histLrt := rfl
  histSpecDiff := rfl

/-- What `WebRtcNsx_SpeechNoiseProb` changes. -/
theorem speechNoiseProb_eq
    {logLrtSum : Int}
    {indicators : Indicators}
    (returned :
      inst.speechNoiseProb logLrtSum = some (indicators, next)) :
    next =
      { inst with
        featureLogLrt :=
          int32 (logLrtSum * binSizeLrt) >>> (inst.band.stages + 11)
        priorNonSpeechProb := inst.updatePrior indicators } := by
  unfold speechNoiseProb at returned
  simp only [Option.bind_eq_bind, Option.bind_eq_some_iff] at returned
  obtain ⟨_, _, _, _, _, _, result⟩ := returned
  obtain ⟨rfl, rfl⟩ := Prod.mk.inj (Option.some.inj result)
  rfl

/-- The measures of a quiet frame, up to the model. -/
def measureQuiet (inst : FeatureCore) : FeatureCore :=
  let inst := { inst with blockIndex := inst.blockIndex + 1 }
  let inst := inst.computeSpectralFlatness quietFrame.spectralFlatness
  let inst := inst.averageEnergy quietFrame.energy
  let inst :=
    inst.computeSpectralDifference quietFrame.energy quietFrame.difference
  { inst with cntThresUpdate := inst.cntThresUpdate + 1 }

/-- The energy of quiet frames averages to one unit. -/
theorem Quiet.averageEnergy
    {frames : Nat}
    (quiet : Quiet frames inst) :
    inst.measureQuiet.timeAvgMagnEnergy = 1 ∧
      (frames + 1 ≤ 200 →
        inst.measureQuiet.timeAvgMagnEnergyTmp = (frames + 1 : Nat)) := by
  have block := quiet.blockIndex
  unfold measureQuiet FeatureCore.averageEnergy
  dsimp only [FeatureCore.computeSpectralFlatness,
    FeatureCore.computeSpectralDifference, quietFrame, endStartupLong]
  by_cases startup : frames < 200
  · have sum :
        uint32 (inst.timeAvgMagnEnergyTmp + (1 : UInt32).toNat) =
          frames + 1 := by
      rw [quiet.timeAvgMagnEnergyTmp startup.le]
      exact Int.emod_eq_of_lt (by omega) (by
        change (frames : Int) + 1 < 2 ^ 32
        omega)
    rw [if_pos (by omega)]
    dsimp only
    rw [sum, block]
    refine ⟨?_, fun _ => by omega⟩
    unfold Aecm.divU32U16
    rw [if_pos (by omega), Int.sub_add_cancel]
    exact Int.ediv_self (by omega)
  · rw [if_neg (by omega)]
    exact ⟨quiet.timeAvgMagnEnergy (by omega), fun _ => by omega⟩

/-- The spectral difference decays over quiet frames. -/
theorem Quiet.specDiff
    {frames : Nat}
    (quiet : Quiet frames inst) :
    0 ≤ inst.measureQuiet.featureSpecDiff ∧
      inst.measureQuiet.featureSpecDiff ≤ 50 := by
  have lower := quiet.wellFormed.featureSpecDiff.1
  have upper := quiet.featureSpecDiff
  have decays :
      inst.measureQuiet.featureSpecDiff =
        if 0 < inst.featureSpecDiff then
          uint32
            (inst.featureSpecDiff -
              uint32 ((inst.featureSpecDiff - 0) * 77) >>> (8 : Nat))
        else
          uint32
            (inst.featureSpecDiff +
              uint32 ((0 - inst.featureSpecDiff) * 77) >>> (8 : Nat)) := by
    unfold measureQuiet FeatureCore.averageEnergy
    dsimp only
    split <;> rfl
  rw [decays]
  unfold uint32
  simp only [Int.shiftRight_eq_div_pow, Nat.cast_pow, Nat.cast_ofNat]
  split
  next positive =>
      have share :
          (inst.featureSpecDiff - 0) * 77 % 2 ^ 32 =
            inst.featureSpecDiff * 77 := by
        rw [sub_zero]
        exact Int.emod_eq_of_lt (by omega) (by omega)
      rw [share, Int.emod_eq_of_lt (by omega) (by omega)]
      omega
  next zero =>
      have none : inst.featureSpecDiff = 0 := by
        omega
      rw [none]
      decide

/-- What else a quiet frame leaves, up to the model. -/
theorem measureQuiet_eq (inst : FeatureCore) :
    inst.measureQuiet =
      { inst with
        blockIndex := inst.blockIndex + 1
        cntThresUpdate := inst.cntThresUpdate + 1
        curAvgMagnEnergy := uint32 (inst.curAvgMagnEnergy + 1)
        timeAvgMagnEnergyTmp := inst.measureQuiet.timeAvgMagnEnergyTmp
        timeAvgMagnEnergy := inst.measureQuiet.timeAvgMagnEnergy
        featureSpecFlat := inst.measureQuiet.featureSpecFlat
        featureSpecDiff := inst.measureQuiet.featureSpecDiff } := by
  unfold measureQuiet FeatureCore.averageEnergy
  dsimp only
  split <;> rfl

/-- The histograms of a window of quiet frames. -/
theorem Quiet.measure
    {frames : Nat}
    (quiet : Quiet frames inst)
    (within : frames < 511) :
    inst.measure quietFrame = inst.measureQuiet.updateHistograms := by
  have count := quiet.cntThresUpdate
  have notLast : inst.measureQuiet.cntThresUpdate ≠ 2 ^ statUpdates := by
    rw [measureQuiet_eq]
    change inst.cntThresUpdate + 1 ≠ 2 ^ 9
    omega
  exact if_neg notLast

/-- A quiet frame that does not end the window. -/
theorem Quiet.succ
    {frames : Nat}
    (quiet : Quiet frames inst)
    (within : frames < 511) :
    ∃ next,
      inst.processCore quietFrame = some next ∧ Quiet (frames + 1) next := by
  have measured := quiet.measure within
  have wellFormed := quiet.wellFormed.measure quietFrame
  have unweighted : (inst.measure quietFrame).weightSpecDiff = 0 := by
    rw [measured, updateHistograms, measureQuiet_eq]
    exact quiet.unweighted
  obtain ⟨indicators, next, returned, -⟩ :=
    quiet.wellFormed.frameKept_iff.mpr (.inl unweighted)
  refine ⟨next, by rw [processCore, returned]; rfl, ?_⟩
  have nextFormed := (wellFormed.speechNoiseProb returned).2.2.2
  obtain ⟨average, sum⟩ := quiet.averageEnergy
  obtain ⟨lower, upper⟩ := quiet.specDiff
  have isNext := speechNoiseProb_eq returned
  rw [measured, updateHistograms] at isNext
  have fields := measureQuiet_eq inst
  generalize inst.measureQuiet = core at *
  have band : core.band = .wide :=
    (congrArg FeatureCore.band fields).trans quiet.band
  have logLrt : core.featureLogLrt = inst.featureLogLrt :=
    (congrArg FeatureCore.featureLogLrt fields).trans rfl
  have histLrt : core.histLrt = List.replicate histParEst 0 :=
    (congrArg FeatureCore.histLrt fields).trans quiet.histLrt
  have histSpecDiff :
      core.histSpecDiff = (frames : Int) :: List.replicate 999 0 :=
    (congrArg FeatureCore.histSpecDiff fields).trans quiet.histSpecDiff
  have energy : core.curAvgMagnEnergy = (frames + 1 : Nat) := by
    refine (congrArg FeatureCore.curAvgMagnEnergy fields).trans ?_
    dsimp only
    rw [quiet.curAvgMagnEnergy, uint32, Nat.cast_succ]
    exact Int.emod_eq_of_lt (by omega) (by omega)
  have blockIndex : core.blockIndex = (frames + 1 : Nat) - 1 := by
    refine (congrArg FeatureCore.blockIndex fields).trans ?_
    dsimp only
    rw [quiet.blockIndex, Nat.cast_succ]
    omega
  have count : core.cntThresUpdate = (frames + 1 : Nat) := by
    refine (congrArg FeatureCore.cntThresUpdate fields).trans ?_
    rw [quiet.cntThresUpdate, Nat.cast_succ]
  rw [isNext] at nextFormed ⊢
  refine
    { wellFormed := nextFormed
      band := band
      unweighted :=
        (congrArg FeatureCore.weightSpecDiff fields).trans quiet.unweighted
      blockIndex := blockIndex
      cntThresUpdate := count
      curAvgMagnEnergy := energy
      timeAvgMagnEnergyTmp := sum
      timeAvgMagnEnergy := fun _ => average
      featureSpecDiff := upper
      featureLogLrt := ?logLrt
      histLrt := ?histLrt
      histSpecDiff := ?histSpecDiff }
  case logLrt =>
    dsimp only
    rw [band]
    decide
  case histLrt =>
    dsimp only [countFrame]
    rw [logLrt, if_neg (not_lt.mpr quiet.featureLogLrt)]
    exact histLrt
  case histSpecDiff =>
    have index : uint32 (core.featureSpecDiff * 5) >>> (8 : Nat) = 0 := by
      unfold uint32
      rw [Int.shiftRight_eq_div_pow, Int.emod_eq_of_lt (by omega) (by omega)]
      omega
    dsimp only
    rw [average, if_pos (by decide), band]
    simp only [Band.stages]
    rw [index, histSpecDiff]
    change int16 (frames + 1) :: _ = _
    rw [int16_of_bounds (by omega) (by omega)]
    rfl

/-- The quiet frames of a window. -/
theorem exists_quiet
    (frames : Nat)
    (within : frames ≤ 511) :
    ∃ inst,
      (List.replicate frames quietFrame).foldlM processCore
          (initCore .wide) = some inst ∧
        Quiet frames inst := by
  induction frames with
  | zero =>
      exact ⟨_, rfl, .initCore⟩
  | succ frames inductionHypothesis =>
      obtain ⟨inst, reached, quiet⟩ := inductionHypothesis (by omega)
      obtain ⟨next, taken, nextQuiet⟩ := quiet.succ (by omega)
      refine ⟨next, ?_, nextQuiet⟩
      rw [List.replicate_succ', List.foldlM_append, reached,
        Option.bind_eq_bind, Option.bind_some, List.foldlM_cons, taken]
      rfl

/-- The features after a window of quiet frames: the spectral difference has a weight, and
is compared with one unit of energy. -/
structure WindowEnded (inst : FeatureCore) : Prop where
  wellFormed : inst.WellFormed
  band : inst.band = .wide
  weighted : inst.weightSpecDiff ≠ 0
  cntThresUpdate : inst.cntThresUpdate = 0
  blockIndex : 200 ≤ inst.blockIndex
  timeAvgMagnEnergy : inst.timeAvgMagnEnergy = 1
  featureSpecDiff : inst.featureSpecDiff ≤ 50
  thresholdSpecDiff : inst.thresholdSpecDiff = 16

/-- Empty entries are not peaks. -/
theorem foldl_visit_replicate
    {peaks : Peaks}
    (first : 0 ≤ peaks.maxPeak1)
    (second : 0 ≤ peaks.maxPeak2)
    (entries start : Nat) :
    ((List.replicate entries 0).zipIdx start).foldl Peaks.visit peaks =
      peaks := by
  induction entries generalizing start with
  | zero =>
      rfl
  | succ entries inductionHypothesis =>
      rw [List.replicate_succ, List.zipIdx_cons, List.foldl_cons,
        Peaks.visit, if_neg (not_lt.mpr first), if_neg (not_lt.mpr second)]
      exact inductionHypothesis (start + 1)

/-- The peaks of a histogram with one entry that is not empty. -/
theorem mainPeaks_cons
    {count : Int}
    (positive : 0 < count)
    (entries : Nat) :
    mainPeaks (count :: List.replicate entries 0) =
      Peaks.merge ⟨count, 0, count, 0, 1, 0⟩ := by
  unfold mainPeaks
  rw [List.zipIdx_cons, List.foldl_cons, Peaks.visit, if_pos positive,
    foldl_visit_replicate positive.le (le_refl 0)]
  rfl

/-- The parameters at the end of a window of quiet frames. -/
theorem Quiet.windowEnded (quiet : Quiet 511 inst) :
    WindowEnded (inst.measure quietFrame) := by
  have wellFormed := quiet.wellFormed.measure quietFrame
  have fields := measureQuiet_eq inst
  obtain ⟨average, -⟩ := quiet.averageEnergy
  obtain ⟨lower, upper⟩ := quiet.specDiff
  have last : inst.measureQuiet.cntThresUpdate = 2 ^ statUpdates := by
    refine (congrArg FeatureCore.cntThresUpdate fields).trans ?_
    dsimp only
    rw [quiet.cntThresUpdate]
    rfl
  have measured :
      inst.measure quietFrame =
        inst.measureQuiet.extractParameters.endWindow :=
    if_pos last
  have histLrt :
      inst.measureQuiet.histLrt = List.replicate histParEst 0 :=
    (congrArg FeatureCore.histLrt fields).trans quiet.histLrt
  have histSpecDiff :
      inst.measureQuiet.histSpecDiff = 511 :: List.replicate 999 0 :=
    (congrArg FeatureCore.histSpecDiff fields).trans quiet.histSpecDiff
  have energy : inst.measureQuiet.curAvgMagnEnergy = 512 := by
    refine (congrArg FeatureCore.curAvgMagnEnergy fields).trans ?_
    dsimp only
    rw [quiet.curAvgMagnEnergy]
    rfl
  have fluctuates : ¬inst.measureQuiet.LowFluctuation := by
    unfold LowFluctuation numHistLrt
    rw [histLrt]
    decide +kernel
  have uses : inst.measureQuiet.UsesSpecDiff := by
    refine ⟨fluctuates, ?_⟩
    rw [histSpecDiff, mainPeaks_cons (by decide)]
    decide
  have newEnergy :
      uint32
            (inst.measureQuiet.curAvgMagnEnergy >>> statUpdates +
              inst.measureQuiet.timeAvgMagnEnergy + 1) >>> (1 : Nat) = 1 := by
    rw [energy, average]
    decide
  rw [measured] at wellFormed ⊢
  refine
    { wellFormed := wellFormed
      band := (congrArg FeatureCore.band fields).trans quiet.band
      weighted := ?weighted
      cntThresUpdate := rfl
      blockIndex := ?blockIndex
      timeAvgMagnEnergy := newEnergy
      featureSpecDiff := ?featureSpecDiff
      thresholdSpecDiff := ?thresholdSpecDiff }
  case weighted =>
    unfold endWindow extractParameters
    dsimp only
    rw [if_pos uses]
    split <;> decide
  case blockIndex =>
    have block := congrArg FeatureCore.blockIndex fields
    have before := quiet.blockIndex
    change 200 ≤ inst.measureQuiet.blockIndex
    dsimp only at block
    omega
  case featureSpecDiff =>
    have same :
        inst.measureQuiet.extractParameters.endWindow.featureSpecDiff =
          inst.measureQuiet.featureSpecDiff := by
      refine if_neg fun rescales => rescales.1 ?_
      exact newEnergy.trans average.symm
    rw [same]
    exact upper
  case thresholdSpecDiff =>
    unfold endWindow extractParameters
    dsimp only
    rw [if_neg fluctuates, histSpecDiff, mainPeaks_cons (by decide)]
    decide

theorem small_normU32
    {word : Int}
    (positive : 0 < word)
    (small : word ≤ 50) :
    12 ≤ Agc.normU32 word := by
  interval_cases word <;> decide

/-- The spectral difference of a loud frame has 24 bits. -/
theorem loud_normU32
    {featureSpecDiff : Int}
    (lower : 0 ≤ featureSpecDiff)
    (upper : featureSpecDiff ≤ 50) :
    let loud :=
      uint32
        (featureSpecDiff +
          uint32 ((2 ^ 25 - featureSpecDiff) * 77) >>> (8 : Nat))
    loud ≠ 0 ∧ Agc.normU32 loud = 8 := by
  interval_cases featureSpecDiff <;> decide

/-- A quiet frame that ends the window returns. -/
theorem Quiet.endWindow (quiet : Quiet 511 inst) :
    ∃ next,
      inst.processCore quietFrame = some next ∧ WindowEnded next := by
  have ended := quiet.windowEnded
  have inRange : FrameInRange inst quietFrame := by
    obtain ⟨lower, -⟩ := ended.wellFormed.featureSpecDiff
    have upper := ended.featureSpecDiff
    by_cases present : (inst.measure quietFrame).featureSpecDiff = 0
    · exact .inr (.inl present)
    · -- a small difference is moved by as many bits as the energy is in
      have norm : (inst.measure quietFrame).specDiffNorm = 12 := by
        unfold specDiffNorm
        rw [ended.band]
        exact min_eq_left (small_normU32 (by omega) upper)
      refine .inr (.inr (.inl ?_))
      rw [norm, ended.band, ended.timeAvgMagnEnergy,
        ended.thresholdSpecDiff]
      simp only [Band.stages]
      omega
  obtain ⟨indicators, next, returned, -⟩ :=
    quiet.wellFormed.frameKept_iff.mpr inRange
  refine ⟨next, by rw [processCore, returned]; rfl, ?_⟩
  have nextFormed := (ended.wellFormed.speechNoiseProb returned).2.2.2
  rw [speechNoiseProb_eq returned] at nextFormed ⊢
  exact
    { wellFormed := nextFormed
      band := ended.band
      weighted := ended.weighted
      cntThresUpdate := ended.cntThresUpdate
      blockIndex := ended.blockIndex
      timeAvgMagnEnergy := ended.timeAvgMagnEnergy
      featureSpecDiff := ended.featureSpecDiff
      thresholdSpecDiff := ended.thresholdSpecDiff }

/-- The measures of a loud frame after the window. -/
theorem WindowEnded.measure (ended : WindowEnded inst) :
    ∃ featureSpecFlat curAvgMagnEnergy histLrt histSpecFlat histSpecDiff,
      inst.measure loudFrame =
        { inst with
          featureSpecFlat
          curAvgMagnEnergy
          histLrt
          histSpecFlat
          histSpecDiff
          blockIndex := inst.blockIndex + 1
          cntThresUpdate := inst.cntThresUpdate + 1
          featureSpecDiff :=
            uint32
              (inst.featureSpecDiff +
                uint32 ((2 ^ 25 - inst.featureSpecDiff) * 77) >>>
                  (8 : Nat)) } := by
  have block := ended.blockIndex
  have small := ended.featureSpecDiff
  have difference : ((2 ^ 25 : UInt32).toNat : Int) = 2 ^ 25 := rfl
  unfold FeatureCore.measure FeatureCore.averageEnergy
  dsimp only [FeatureCore.computeSpectralFlatness, loudFrame, endStartupLong]
  rw [if_neg (by omega)]
  unfold FeatureCore.updateModel FeatureCore.computeSpectralDifference
  dsimp only
  rw [if_neg (by rw [ended.cntThresUpdate]; decide), difference,
    if_neg (by omega)]
  exact ⟨_, _, _, _, _, rfl⟩

/-- A loud frame after the window makes the spectral difference too large. -/
theorem WindowEnded.outOfRange (ended : WindowEnded inst) :
    ¬FrameInRange inst loudFrame := by
  have measured := ended.measure
  obtain ⟨present, norm⟩ :=
    loud_normU32 ended.wellFormed.featureSpecDiff.1 ended.featureSpecDiff
  have nonneg := (ended.wellFormed.measure loudFrame).featureSpecDiff.1
  obtain ⟨flatness, energy, histLrt, histSpecFlat, histSpecDiff, core⟩ :=
    measured
  have weighted := ended.weighted
  rw [core] at nonneg
  unfold FrameInRange SpecDiffInRange specDiffNorm
  rw [core]
  dsimp only
  rw [norm, ended.band, ended.timeAvgMagnEnergy]
  -- four bits remain for the energy, which is one unit
  have silent :
      (1 : Int) /
          2 ^ (20 - Band.wide.stages - min (20 - Band.wide.stages) 8) = 0 := by
    decide
  rw [silent]
  rintro (unweighted | absent | small | ⟨one, -⟩)
  · exact weighted unweighted
  · exact present absent
  · rw [mul_zero] at small
    exact absurd small (not_lt.mpr (mul_nonneg nonneg (by positivity)))
  · contradiction

/-- A window of quiet frames with one unit of energy leaves a weight to the spectral
difference, which a loud frame then makes too large. -/
theorem not_speechNoiseProb_kept_loud :
    ¬AlongRun processCore FrameKept (initCore .wide)
        (List.replicate 512 quietFrame ++ [loudFrame]) := by
  intro along
  obtain ⟨inst, reached, quiet⟩ := exists_quiet 511 le_rfl
  obtain ⟨next, taken, ended⟩ := quiet.endWindow
  have window :
      (List.replicate 512 quietFrame).foldlM processCore
          (initCore .wide) = some next := by
    rw [List.replicate_succ', List.foldlM_append, reached,
      Option.bind_eq_bind, Option.bind_some, List.foldlM_cons, taken]
    rfl
  exact
    ended.outOfRange
      (ended.wellFormed.frameKept_iff.mp (along.last window))

end FeatureCore

end ApmSdk.Nsx
