import ApmSdk.SpeechProbability

namespace ApmSdk.Nsx

/-!
# The moments of the likelihood ratio's histogram

At the end of a window `WebRtcNsx_FeatureParameterExtraction` measures how much the
likelihood ratio has fluctuated, from moments of its histogram that are added up in words
of 32 bits.
-/

/-! ## Weighted sums -/

/-- The sum of some counts, with each weighted by its position. -/
def weightedCount (weight : Nat → Int) (counts : List Int) : Int :=
  (counts.zipIdx.map fun entry => entry.1 * weight entry.2).sum

section Weighted

variable {counts : List Int} {weight smaller larger : Nat → Int}

@[simp] theorem weightedCount_nil : weightedCount weight [] = 0 :=
  rfl

@[simp] theorem weightedCount_cons {count : Int} :
    weightedCount weight (count :: counts) =
      count * weight 0 + weightedCount (fun bin => weight (bin + 1)) counts := by
  simp [weightedCount, List.zipIdx_succ, Function.comp_def]

theorem weightedCount_replicate_zero (entries : Nat) :
    weightedCount weight (List.replicate entries 0) = 0 := by
  induction entries generalizing weight with
  | zero =>
      rfl
  | succ entries inductionHypothesis =>
      rw [List.replicate_succ, weightedCount_cons, inductionHypothesis, zero_mul,
        add_zero]

/-- The first entries are those with a weight. -/
theorem weightedCount_take (entries : Nat) :
    weightedCount weight (counts.take entries) =
      weightedCount (fun bin => if bin < entries then weight bin else 0)
        counts := by
  induction counts generalizing weight entries with
  | nil =>
      rw [List.take_nil, weightedCount_nil, weightedCount_nil]
  | cons count counts inductionHypothesis =>
      cases entries with
      | zero =>
          have none :
              weightedCount (fun bin => weight (bin + 1)) (counts.take 0) =
                weightedCount
                  (fun bin => if bin < 0 then weight (bin + 1) else 0)
                  counts :=
            inductionHypothesis 0
          simp only [List.take_zero, weightedCount_nil, Nat.not_lt_zero,
            if_false] at none
          simp [← none]
      | succ entries =>
          simp [inductionHypothesis]

theorem weightedCount_sub :
    weightedCount (fun bin => larger bin - smaller bin) counts =
      weightedCount larger counts - weightedCount smaller counts := by
  induction counts generalizing larger smaller with
  | nil =>
      rfl
  | cons count counts inductionHypothesis =>
      rw [weightedCount_cons, weightedCount_cons, weightedCount_cons, inductionHypothesis]
      ring

theorem weightedCount_mul_left (factor : Int) :
    weightedCount (fun bin => factor * weight bin) counts =
      factor * weightedCount weight counts := by
  induction counts generalizing weight with
  | nil =>
      rw [weightedCount_nil, weightedCount_nil, mul_zero]
  | cons count counts inductionHypothesis =>
      rw [weightedCount_cons, weightedCount_cons, inductionHypothesis]
      ring

/-- Larger weights have a larger sum. -/
theorem weightedCount_mono
    (nonneg : ∀ count ∈ counts, 0 ≤ count)
    (le : ∀ bin < counts.length, smaller bin ≤ larger bin) :
    weightedCount smaller counts ≤ weightedCount larger counts := by
  induction counts generalizing smaller larger with
  | nil =>
      exact le_refl 0
  | cons count counts inductionHypothesis =>
      rw [weightedCount_cons, weightedCount_cons]
      have head : count * smaller 0 ≤ count * larger 0 :=
        mul_le_mul_of_nonneg_left (le 0 (by simp))
          (nonneg count List.mem_cons_self)
      have rest :=
        inductionHypothesis
          (fun other member => nonneg other (List.mem_cons_of_mem _ member))
          (fun bin inRange => le (bin + 1) (Nat.succ_lt_succ inRange))
      omega

theorem weightedCount_nonneg
    (nonneg : ∀ count ∈ counts, 0 ≤ count)
    (positive : ∀ bin, 0 ≤ weight bin) :
    0 ≤ weightedCount weight counts := by
  have zero : weightedCount (fun _ => 0) counts = 0 := by
    have scaled :
        weightedCount (fun bin => 0 * weight bin) counts =
          0 * weightedCount weight counts :=
      weightedCount_mul_left 0
    simpa only [zero_mul] using scaled
  rw [← zero]
  exact weightedCount_mono nonneg fun bin _ => positive bin

/-- One more frame in a bin. -/
theorem weightedCount_modify
    {bin : Nat}
    (inRange : bin < counts.length)
    {count : Int → Int}
    (isNext : ∀ other ∈ counts, count other = other + 1) :
    weightedCount weight (counts.modify bin count) =
      weightedCount weight counts + weight bin := by
  induction counts generalizing weight bin with
  | nil =>
      contradiction
  | cons head counts inductionHypothesis =>
      cases bin with
      | zero =>
          rw [List.modify_zero_cons, weightedCount_cons, weightedCount_cons,
            isNext head List.mem_cons_self]
          ring
      | succ bin =>
          rw [List.modify_succ_cons, weightedCount_cons, weightedCount_cons,
            inductionHypothesis (Nat.lt_of_succ_lt_succ inRange)
              fun other member =>
                isNext other (List.mem_cons_of_mem _ member)]
          ring

end Weighted

/-- No count is larger than their sum. -/
theorem le_weighted_one
    (nonneg : ∀ count ∈ counts, 0 ≤ count)
    {count : Int}
    (member : count ∈ counts) :
    count ≤ weightedCount (fun _ => 1) counts := by
  induction counts with
  | nil =>
      contradiction
  | cons head counts inductionHypothesis =>
      rw [weightedCount_cons, mul_one]
      have rest : ∀ other ∈ counts, 0 ≤ other :=
        fun other inRest => nonneg other (List.mem_cons_of_mem _ inRest)
      obtain isHead | inRest := List.mem_cons.mp member
      · have others : 0 ≤ weightedCount (fun _ => 1) counts :=
          weightedCount_nonneg rest fun _ => by decide
        omega
      · have first := nonneg head List.mem_cons_self
        have others := inductionHypothesis rest inRest
        omega

/-! ## The moments of a window -/

theorem moment_eq_weighted (power : Nat) (counts : List Int) :
    moment power counts =
      weightedCount (fun bin => (2 * (bin : Int) + 1) ^ power) counts :=
  rfl

/-- The counts of a window of at most 511 frames. -/
structure Counted (counts : List Int) (frames : Int) : Prop where
  size : counts.length = histParEst
  nonneg : ∀ count ∈ counts, 0 ≤ count
  total : weightedCount (fun _ => 1) counts ≤ frames

namespace Counted

variable {counts : List Int} {frames : Int}

theorem nonneg_take
    (counted : Counted counts frames)
    (entries : Nat) :
    ∀ count ∈ counts.take entries, 0 ≤ count :=
  fun count member => counted.nonneg count (List.mem_of_mem_take member)

theorem moment_nonneg
    (counted : Counted counts frames)
    (power entries : Nat) :
    0 ≤ moment power (counts.take entries) := by
  rw [moment_eq_weighted]
  exact weightedCount_nonneg (counted.nonneg_take entries) fun _ => by positivity

/-- A moment of the first bins is at most that of all of them. -/
theorem moment_take_le
    (counted : Counted counts frames)
    (power entries : Nat) :
    moment power (counts.take entries) ≤ moment power counts := by
  rw [moment_eq_weighted, moment_eq_weighted, weightedCount_take]
  refine weightedCount_mono counted.nonneg fun bin _ => ?_
  split
  · exact le_refl _
  · positivity

/-- No bin weighs more than the last. -/
theorem moment_le
    (counted : Counted counts frames)
    (power : Nat) :
    moment power counts ≤ 1999 ^ power * frames := by
  have last :
      moment power counts ≤ weightedCount (fun _ => 1999 ^ power * 1) counts := by
    rw [moment_eq_weighted]
    refine weightedCount_mono counted.nonneg fun bin inRange => ?_
    have size := counted.size
    dsimp only [histParEst] at size
    rw [mul_one]
    exact pow_le_pow_left₀ (by omega) (by omega) power
  rw [weightedCount_mul_left] at last
  exact
    last.trans (mul_le_mul_of_nonneg_left counted.total (by positivity))

/-- No bin of the average weighs more than its last. -/
theorem average_le (counted : Counted counts frames) :
    moment 1 (counts.take binSizeLrt) ≤
      19 * moment 0 (counts.take binSizeLrt) := by
  rw [moment_eq_weighted, moment_eq_weighted, ← weightedCount_mul_left]
  refine
    weightedCount_mono (counted.nonneg_take binSizeLrt) fun bin inRange => ?_
  rw [List.length_take] at inRange
  dsimp only [binSizeLrt] at inRange
  rw [pow_one, pow_zero]
  omega

/-- Beyond the bins of the average, each weighs at least 21. -/
theorem complement_le (counted : Counted counts frames) :
    21 * (moment 1 counts - moment 1 (counts.take binSizeLrt)) ≤
      moment 2 counts := by
  simp only [moment_eq_weighted, weightedCount_take]
  rw [← weightedCount_sub, ← weightedCount_mul_left]
  refine weightedCount_mono counted.nonneg fun bin _ => ?_
  dsimp only [binSizeLrt]
  split
  next =>
      rw [sub_self, mul_zero]
      positivity
  next beyond =>
      have heavy : (21 : Int) ≤ 2 * bin + 1 := by
        omega
      rw [sub_zero, pow_one, pow_two]
      exact mul_le_mul_of_nonneg_right heavy (by omega)

/-- A frame that is counted weighs as its bin does. -/
theorem weightedCount_countFrame
    (counted : Counted counts frames)
    (window : frames ≤ 511)
    (weight : Nat → Int)
    (histIndex : Int) :
    weightedCount weight (countFrame histIndex counts) =
      weightedCount weight counts +
        if histIndex < histParEst then weight histIndex.toNat else 0 := by
  unfold countFrame
  split
  next inRange =>
      refine weightedCount_modify ?_ fun count member => ?_
      · rw [counted.size]
        dsimp only [histParEst] at inRange ⊢
        omega
      · have positive := counted.nonneg count member
        have few :=
          (le_weighted_one counted.nonneg member).trans counted.total
        exact int16_of_bounds (by omega) (by omega)
  next =>
      rw [add_zero]

theorem countFrame
    (counted : Counted counts frames)
    (window : frames ≤ 511)
    (histIndex : Int) :
    Counted (countFrame histIndex counts) (frames + 1) where
  size := by
    unfold Nsx.countFrame
    split
    · rw [List.length_modify]
      exact counted.size
    · exact counted.size
  nonneg := by
    unfold Nsx.countFrame
    split
    · intro count member
      obtain ⟨bin, inRange, rfl⟩ := List.getElem_of_mem member
      rw [List.length_modify] at inRange
      rw [List.getElem_modify]
      have member : counts[bin] ∈ counts := List.getElem_mem inRange
      have positive := counted.nonneg _ member
      have few :=
        (le_weighted_one counted.nonneg member).trans counted.total
      split
      · rw [int16_of_bounds (by omega) (by omega)]
        omega
      · exact positive
    · exact counted.nonneg
  total := by
    rw [counted.weightedCount_countFrame window]
    have total := counted.total
    split <;> omega

/-- The average and the sum of all fit as long as the sum of the squares does. -/
theorem products_lt
    (counted : Counted counts frames)
    (window : frames ≤ 511)
    (fits :
      moment 2 counts * moment 0 (counts.take binSizeLrt) < 2 ^ 31) :
    moment 1 (counts.take binSizeLrt) * moment 1 counts < 2 ^ 31 := by
  have number := counted.moment_take_le 0 binSizeLrt
  have total := counted.moment_le 0
  have average := counted.average_le
  have complement := counted.complement_le
  have positive := counted.moment_nonneg 1 binSizeLrt
  have whole := counted.moment_take_le 1 binSizeLrt
  generalize moment 0 (counts.take binSizeLrt) = numHistLrt at *
  generalize moment 1 (counts.take binSizeLrt) = avgHistLrtFX at *
  generalize moment 1 counts = avgHistLrtComplFX at *
  generalize moment 2 counts = avgSquareHistLrtFX at *
  rw [pow_zero, one_mul] at total
  have few : numHistLrt ≤ 511 := by
    omega
  have first : avgHistLrtFX * avgHistLrtFX ≤ 9709 * 9709 :=
    mul_le_mul (by omega) (by omega) positive (by decide)
  have rest :
      avgHistLrtFX * (21 * (avgHistLrtComplFX - avgHistLrtFX)) ≤
        19 * numHistLrt * avgSquareHistLrtFX :=
    mul_le_mul average complement (by omega) (by omega)
  linarith

end Counted

/-- A word of 32 bits. -/
def IsW32 (value : Int) : Prop :=
  -2 ^ 31 ≤ value ∧ value < 2 ^ 31

namespace FeatureCore

/-! ## What the end of a window must do -/

/-- `fluctLrtFX` -/
def fluctLrtFX (inst : FeatureCore) : Int :=
  let avgHistLrtFX := int32 (moment 1 (inst.histLrt.take binSizeLrt))
  let avgHistLrtComplFX := int32 (moment 1 inst.histLrt)
  let avgSquareHistLrtFX := int32 (moment 2 inst.histLrt)
  int32
    (avgSquareHistLrtFX * inst.numHistLrt -
      avgHistLrtFX * avgHistLrtComplFX)

/-- The features of a frame before the histograms. -/
def beforeModel (inst : FeatureCore) (frame : FrameFeatures) : FeatureCore :=
  let inst := { inst with blockIndex := inst.blockIndex + 1 }
  let inst := inst.computeSpectralFlatness frame.spectralFlatness
  let inst := inst.averageEnergy frame.energy
  inst.computeSpectralDifference frame.energy frame.difference

/-- Every threshold is between its minimum and its maximum. -/
structure ThresholdsInRange (inst : FeatureCore) : Prop where
  logLrt :
    inst.band.minLrt ≤ inst.thresholdLogLrt ∧
      inst.thresholdLogLrt ≤ inst.band.maxLrt
  specFlat :
    4096 ≤ inst.thresholdSpecFlat ∧ inst.thresholdSpecFlat ≤ 38912
  specDiff : 16 ≤ inst.thresholdSpecDiff ∧ inst.thresholdSpecDiff ≤ 100

/-- What the end of a window must do: no sum and no product overflows, the fluctuation is
exact, the thresholds are in their ranges and the weights sum up to six. -/
structure WindowKept (inst : FeatureCore) : Prop where
  moments :
    ∀ power ≤ 2, ∀ entries, IsW32 (moment power (inst.histLrt.take entries))
  number : moment 0 (inst.histLrt.take binSizeLrt) < 2 ^ 15
  squares :
    IsW32 (moment 2 inst.histLrt * moment 0 (inst.histLrt.take binSizeLrt))
  averages :
    IsW32 (moment 1 (inst.histLrt.take binSizeLrt) * moment 1 inst.histLrt)
  fluctuation :
    inst.fluctLrtFX =
      moment 2 inst.histLrt * moment 0 (inst.histLrt.take binSizeLrt) -
        moment 1 (inst.histLrt.take binSizeLrt) * moment 1 inst.histLrt
  thresholds : inst.updateModel.ThresholdsInRange
  weights :
    inst.updateModel.weightLogLrt + inst.updateModel.weightSpecFlat +
      inst.updateModel.weightSpecDiff = 6

/-- A frame that ends a window extracts its parameters as it must. -/
def ExtractionKept (inst : FeatureCore) (frame : FrameFeatures) : Prop :=
  (inst.beforeModel frame).cntThresUpdate + 1 = 2 ^ statUpdates →
    WindowKept (inst.beforeModel frame)

/-- At the end of a window the sum of the squares, times the number of frames in the first
bins, is a word of 32 bits. -/
def SquaresFit (inst : FeatureCore) (_ : FrameFeatures) : Prop :=
  inst.cntThresUpdate + 1 = 2 ^ statUpdates →
    moment 2 inst.histLrt * moment 0 (inst.histLrt.take binSizeLrt) < 2 ^ 31

/-! ## What every run keeps -/

/-- A frame has been counted at most once since the window has begun. -/
structure Windowed (inst : FeatureCore) : Prop where
  counted : Counted inst.histLrt inst.cntThresUpdate
  frames : 0 ≤ inst.cntThresUpdate ∧ inst.cntThresUpdate < 2 ^ statUpdates
  thresholds : inst.ThresholdsInRange
  weights :
    inst.weightLogLrt + inst.weightSpecFlat + inst.weightSpecDiff = 6

variable {inst next : FeatureCore} {frame : FrameFeatures}

/-- An empty histogram. -/
theorem counted_empty {frames : Int} (nonneg : 0 ≤ frames) :
    Counted (List.replicate histParEst 0) frames where
  size := List.length_replicate
  nonneg := by
    intro count member
    exact (List.eq_of_mem_replicate member).ge
  total := by
    rw [weightedCount_replicate_zero]
    exact nonneg

theorem Windowed.initCore (band : Band) :
    (FeatureCore.initCore band).Windowed where
  counted := counted_empty le_rfl
  frames := ⟨le_rfl, by simp [FeatureCore.initCore]⟩
  thresholds := by
    cases band <;>
      constructor <;>
      decide
  weights := rfl

/-- What is measured before the histograms leaves the window as it is. -/
theorem beforeModel_eq (inst : FeatureCore) (frame : FrameFeatures) :
    inst.beforeModel frame =
      { inst with
        blockIndex := inst.blockIndex + 1
        featureSpecFlat := (inst.beforeModel frame).featureSpecFlat
        featureSpecDiff := (inst.beforeModel frame).featureSpecDiff
        curAvgMagnEnergy := (inst.beforeModel frame).curAvgMagnEnergy
        timeAvgMagnEnergy := (inst.beforeModel frame).timeAvgMagnEnergy
        timeAvgMagnEnergyTmp :=
          (inst.beforeModel frame).timeAvgMagnEnergyTmp } := by
  unfold beforeModel FeatureCore.averageEnergy
    FeatureCore.computeSpectralFlatness
  cases frame.spectralFlatness <;> dsimp only <;> split <;> rfl

theorem Windowed.beforeModel
    (windowed : inst.Windowed)
    (frame : FrameFeatures) :
    (inst.beforeModel frame).Windowed := by
  rw [beforeModel_eq]
  exact
    { windowed with
      thresholds := { windowed.thresholds with } }

theorem Windowed.updateHistograms
    (windowed : inst.Windowed)
    (within : inst.cntThresUpdate + 1 ≠ 2 ^ statUpdates) :
    ({ inst with
        cntThresUpdate := inst.cntThresUpdate + 1 :
          FeatureCore }.updateHistograms).Windowed := by
  have ⟨lower, upper⟩ := windowed.frames
  dsimp only [statUpdates] at within upper
  have counted :=
    windowed.counted.countFrame (by omega) (uint32 inst.featureLogLrt)
  exact
    { counted
      frames := ⟨Int.add_nonneg lower (by decide), by
        change inst.cntThresUpdate + 1 < 2 ^ 9
        omega⟩
      thresholds := { windowed.thresholds with }
      weights := windowed.weights }

/-- The parameters of a window are in their ranges. -/
theorem ThresholdsInRange.extractParameters
    (thresholds : inst.ThresholdsInRange) :
    inst.extractParameters.ThresholdsInRange where
  logLrt := by
    have ordered : inst.band.minLrt ≤ inst.band.maxLrt := by
      cases inst.band <;> decide
    change
      inst.band.minLrt ≤ inst.extractLogLrt ∧
        inst.extractLogLrt ≤ inst.band.maxLrt
    unfold extractLogLrt
    dsimp only
    split
    · exact ⟨ordered, le_rfl⟩
    · exact sat_range ordered _
  specFlat := by
    unfold FeatureCore.extractParameters
    dsimp only
    split
    · exact sat_range (by decide) _
    · exact thresholds.specFlat
  specDiff := by
    unfold FeatureCore.extractParameters
    dsimp only
    split
    · exact thresholds.specDiff
    · exact sat_range (by decide) _

theorem extractParameters_weights (inst : FeatureCore) :
    inst.extractParameters.weightLogLrt +
        inst.extractParameters.weightSpecFlat +
        inst.extractParameters.weightSpecDiff = 6 := by
  unfold extractParameters
  dsimp only
  split_ifs <;> decide

theorem endWindow_cntThresUpdate (inst : FeatureCore) :
    inst.endWindow.cntThresUpdate = 0 :=
  rfl

/-- A new window begins empty. -/
theorem ThresholdsInRange.endWindow (thresholds : inst.ThresholdsInRange) :
    inst.extractParameters.endWindow.Windowed where
  counted := counted_empty le_rfl
  frames := by
    rw [endWindow_cntThresUpdate]
    decide
  thresholds := { thresholds.extractParameters with }
  weights := inst.extractParameters_weights

theorem Windowed.updateModel (windowed : inst.Windowed) :
    inst.updateModel.Windowed := by
  have thresholds :
      { inst with
        cntThresUpdate := inst.cntThresUpdate + 1 :
          FeatureCore }.ThresholdsInRange :=
    { windowed.thresholds with }
  unfold FeatureCore.updateModel
  dsimp only
  split
  next =>
      exact thresholds.endWindow
  next within =>
      exact windowed.updateHistograms within

theorem Windowed.processCore
    (windowed : inst.Windowed)
    (taken : inst.processCore frame = some next) :
    next.Windowed := by
  unfold FeatureCore.processCore at taken
  simp only [Option.bind_eq_bind, Option.bind_eq_some_iff] at taken
  obtain ⟨⟨indicators, result⟩, returned, same⟩ := taken
  obtain rfl := Option.some.inj same
  have measured : (inst.measure frame).Windowed :=
    (windowed.beforeModel frame).updateModel
  rw [speechNoiseProb_eq returned]
  exact
    { measured with
      thresholds := { measured.thresholds with } }

/-! ## The end of a window -/

/-- The moments of a window are words of 32 bits. -/
theorem Windowed.moments
    (windowed : inst.Windowed)
    {power : Nat}
    (small : power ≤ 2)
    (entries : Nat) :
    IsW32 (moment power (inst.histLrt.take entries)) := by
  have lower := windowed.counted.moment_nonneg power entries
  have part := windowed.counted.moment_take_le power entries
  have whole := windowed.counted.moment_le power
  have frames := windowed.frames
  dsimp only [statUpdates] at frames
  have heaviest : (1999 : Int) ^ power ≤ 1999 ^ 2 :=
    pow_le_pow_right₀ (by decide) small
  have most : 1999 ^ power * inst.cntThresUpdate ≤ 1999 ^ 2 * 511 :=
    mul_le_mul heaviest (by omega) frames.1 (by decide)
  constructor <;> omega

theorem Windowed.number (windowed : inst.Windowed) :
    0 ≤ moment 0 (inst.histLrt.take binSizeLrt) ∧
      moment 0 (inst.histLrt.take binSizeLrt) ≤ 511 := by
  have lower := windowed.counted.moment_nonneg 0 binSizeLrt
  have part := windowed.counted.moment_take_le 0 binSizeLrt
  have whole := windowed.counted.moment_le 0
  have frames := windowed.frames
  dsimp only [statUpdates] at frames
  rw [pow_zero, one_mul] at whole
  constructor <;> omega

/-- All of the moments as the code has them. -/
theorem Windowed.fluctLrtFX_eq (windowed : inst.Windowed) :
    inst.fluctLrtFX =
      int32
        (moment 2 inst.histLrt *
            moment 0 (inst.histLrt.take binSizeLrt) -
          moment 1 (inst.histLrt.take binSizeLrt) *
            moment 1 inst.histLrt) := by
  have whole (power : Nat) (small : power ≤ 2) :
      IsW32 (moment power inst.histLrt) := by
    have word := windowed.moments small histParEst
    rwa [← windowed.counted.size, List.take_length] at word
  have average := windowed.moments (by decide : 1 ≤ 2) binSizeLrt
  have number := windowed.number
  unfold fluctLrtFX numHistLrt
  dsimp only
  rw [int32_of_bounds average.1 average.2,
    int32_of_bounds (whole 1 (by decide)).1 (whole 1 (by decide)).2,
    int32_of_bounds (whole 2 (by decide)).1 (whole 2 (by decide)).2,
    int16_of_bounds (by omega) (by omega)]

/-- The end of a window is as it must be exactly if the sum of the squares, times the
number of frames in the first bins, fits. -/
theorem Windowed.windowKept_iff (windowed : inst.Windowed) :
    WindowKept inst ↔
      moment 2 inst.histLrt * moment 0 (inst.histLrt.take binSizeLrt) <
        2 ^ 31 := by
  constructor
  · intro kept
    exact kept.squares.2
  · intro fits
    have frames := windowed.frames
    dsimp only [statUpdates] at frames
    have number := windowed.number
    have whole (power : Nat) : 0 ≤ moment power inst.histLrt := by
      have lower := windowed.counted.moment_nonneg power histParEst
      rwa [← windowed.counted.size, List.take_length] at lower
    have squares :
        0 ≤ moment 2 inst.histLrt *
              moment 0 (inst.histLrt.take binSizeLrt) :=
      mul_nonneg (whole 2) number.1
    have averages :
        0 ≤ moment 1 (inst.histLrt.take binSizeLrt) *
              moment 1 inst.histLrt :=
      mul_nonneg (windowed.counted.moment_nonneg 1 binSizeLrt) (whole 1)
    have averagesFit :=
      windowed.counted.products_lt (by omega) fits
    exact
      { moments := fun power small entries => windowed.moments small entries
        number := by omega
        squares := ⟨by omega, fits⟩
        averages := ⟨by omega, averagesFit⟩
        fluctuation := by
          rw [windowed.fluctLrtFX_eq]
          exact int32_of_bounds (by omega) (by omega)
        thresholds := windowed.updateModel.thresholds
        weights := windowed.updateModel.weights }

theorem Windowed.extractionKept_iff (windowed : inst.Windowed) :
    ExtractionKept inst frame ↔ SquaresFit inst frame := by
  unfold ExtractionKept SquaresFit
  rw [(windowed.beforeModel frame).windowKept_iff, beforeModel_eq]

/-- In every run of frames the end of each window is as it must be, exactly if the sum of
the squares, times the number of frames in the first bins, fits at each. -/
theorem extraction_kept_iff
    (band : Band)
    (frames : List FrameFeatures) :
    AlongRun processCore ExtractionKept (initCore band) frames ↔
      AlongRun processCore SquaresFit (initCore band) frames :=
  AlongRun.iff_of_invariant Windowed
    (fun windowed taken => windowed.processCore taken)
    (fun windowed => windowed.extractionKept_iff)
    (.initCore band) frames

/-! ## A window that overflows -/

/-- A frame whose likelihood ratio is that of a bin, in the narrow band. -/
def binFrame (bin : Nat) : FrameFeatures where
  spectralFlatness := none
  energy := 1
  difference := 0
  logLrtSum := (bin * 2 ^ 18 + 9) / 10

/-- The features within the first window, of frames with some bins; that of the last frame
is not counted yet. -/
structure Filling (bins : List Nat) (inst : FeatureCore) : Prop where
  windowed : inst.Windowed
  wellFormed : inst.WellFormed
  band : inst.band = .narrow
  unweighted : inst.weightSpecDiff = 0
  cntThresUpdate : inst.cntThresUpdate = bins.length
  counts :
    ∀ weight,
      weightedCount weight
          (countFrame (uint32 inst.featureLogLrt) inst.histLrt) =
        (bins.map weight).sum

theorem Filling.initCore : Filling [] (initCore .narrow) where
  windowed := .initCore .narrow
  wellFormed := .initCore .narrow
  band := rfl
  unweighted := rfl
  cntThresUpdate := rfl
  counts := fun _ =>
    -- the feature of the default threshold is in no bin
    weightedCount_replicate_zero histParEst

/-- One more frame counts the bin of the one before. -/
theorem Filling.snoc
    {bins : List Nat}
    (filling : Filling bins inst)
    (within : bins.length < 511)
    {bin : Nat}
    (inRange : bin < histParEst) :
    ∃ next,
      inst.processCore (binFrame bin) = some next ∧
        Filling (bins ++ [bin]) next ∧
          ∀ weight,
            weightedCount weight next.histLrt = (bins.map weight).sum := by
  have fields := beforeModel_eq inst (binFrame bin)
  have frames := filling.cntThresUpdate
  have notLast :
      (inst.beforeModel (binFrame bin)).cntThresUpdate + 1 ≠
        2 ^ statUpdates := by
    rw [fields]
    change inst.cntThresUpdate + 1 ≠ 2 ^ 9
    omega
  have measured :
      inst.measure (binFrame bin) =
        { inst.beforeModel (binFrame bin) with
          cntThresUpdate :=
            (inst.beforeModel (binFrame bin)).cntThresUpdate +
              1 }.updateHistograms :=
    if_neg notLast
  have unweighted : (inst.measure (binFrame bin)).weightSpecDiff = 0 := by
    rw [measured, updateHistograms, fields]
    exact filling.unweighted
  obtain ⟨indicators, next, returned, -⟩ :=
    filling.wellFormed.frameKept_iff.mpr (.inl unweighted)
  have taken : inst.processCore (binFrame bin) = some next := by
    rw [processCore, returned]
    rfl
  have windowed := filling.windowed.processCore taken
  have wellFormed := filling.wellFormed.processCore taken
  have isNext := speechNoiseProb_eq returned
  rw [measured, updateHistograms, fields] at isNext
  have histLrt :
      next.histLrt =
        countFrame (uint32 inst.featureLogLrt) inst.histLrt :=
    congrArg FeatureCore.histLrt isNext
  have featureLogLrt : next.featureLogLrt = bin := by
    refine (congrArg FeatureCore.featureLogLrt isNext).trans ?_
    dsimp only [histParEst] at inRange
    dsimp only [binFrame, binSizeLrt]
    rw [filling.band, int32_of_bounds (by omega) (by omega),
      Int.shiftRight_eq_div_pow]
    simp only [Band.stages, Nat.cast_pow, Nat.cast_ofNat]
    omega
  have before (weight : Nat → Int) :
      weightedCount weight next.histLrt = (bins.map weight).sum := by
    rw [histLrt]
    exact filling.counts weight
  refine ⟨next, taken, ?_, before⟩
  exact
    { windowed
      wellFormed
      band := (congrArg FeatureCore.band isNext).trans filling.band
      unweighted :=
        (congrArg FeatureCore.weightSpecDiff isNext).trans filling.unweighted
      cntThresUpdate := by
        refine (congrArg FeatureCore.cntThresUpdate isNext).trans ?_
        rw [List.length_append]
        change inst.cntThresUpdate + 1 = _
        rw [frames]
        rfl
      counts := by
        intro weight
        have few : next.cntThresUpdate ≤ 511 := by
          have upper := windowed.frames.2
          dsimp only [statUpdates] at upper
          omega
        have inTable : uint32 (bin : Int) = bin := by
          dsimp only [histParEst] at inRange
          exact Int.emod_eq_of_lt (by omega) (by omega)
        rw [windowed.counted.weightedCount_countFrame few, before, featureLogLrt,
          inTable, if_pos (by exact_mod_cast inRange), Int.toNat_natCast]
        simp }

theorem exists_filling
    (bins : List Nat)
    (within : bins.length ≤ 511)
    (inRange : ∀ bin ∈ bins, bin < histParEst) :
    ∃ inst,
      (bins.map binFrame).foldlM FeatureCore.processCore
          (FeatureCore.initCore .narrow) = some inst ∧
        Filling bins inst := by
  induction bins using List.reverseRecOn with
  | nil =>
      exact ⟨_, rfl, .initCore⟩
  | append_singleton bins bin inductionHypothesis =>
      rw [List.length_append] at within
      obtain ⟨inst, reached, filling⟩ :=
        inductionHypothesis (by omega) fun other member =>
          inRange other (List.mem_append_left _ member)
      obtain ⟨next, taken, filled, -⟩ :=
        filling.snoc within (inRange bin (by simp))
      refine ⟨next, ?_, filled⟩
      rw [List.map_append, List.foldlM_append, reached,
        Option.bind_eq_bind, Option.bind_some]
      exact (List.foldlM_cons ..).trans (by rw [taken]; rfl)

/-- As many frames in the first bin as in the last. -/
def halves (frames : Nat) : List Nat :=
  List.replicate frames 0 ++ List.replicate frames 999

theorem halves_length (frames : Nat) :
    (halves frames).length = frames + frames := by
  rw [halves, List.length_append, List.length_replicate,
    List.length_replicate]

theorem halves_sum (frames : Nat) (weight : Nat → Int) :
    ((halves frames).map weight).sum =
      frames * weight 0 + frames * weight 999 := by
  simp [halves]

/-- The first and the last bin hold half of a window each, whose squares overflow. -/
theorem not_squaresFit_halves :
    ∃ inst,
      ((halves 255 ++ [0]).map binFrame).foldlM FeatureCore.processCore
          (FeatureCore.initCore .narrow) = some inst ∧
        inst.Windowed ∧ ¬SquaresFit inst (binFrame 0) := by
  have inRange : ∀ bin ∈ halves 255, bin < histParEst := by
    intro bin member
    obtain first | last := List.mem_append.mp member
    · rw [List.eq_of_mem_replicate first]
      decide
    · rw [List.eq_of_mem_replicate last]
      decide
  have frames : (halves 255).length = 510 :=
    halves_length 255
  obtain ⟨inst, reached, filling⟩ :=
    exists_filling (halves 255) (by omega) inRange
  obtain ⟨next, taken, filled, counts⟩ :=
    filling.snoc (by omega) (by decide : 0 < histParEst)
  refine ⟨next, ?_, filled.windowed, ?_⟩
  · rw [List.map_append, List.foldlM_append, reached,
      Option.bind_eq_bind, Option.bind_some]
    exact (List.foldlM_cons ..).trans (by rw [taken]; rfl)
  · intro fits
    have last : next.cntThresUpdate + 1 = 2 ^ statUpdates := by
      rw [filled.cntThresUpdate, List.length_append, frames]
      rfl
    have overflow := fits last
    have squares : moment 2 next.histLrt = 255 + 255 * 1999 ^ 2 := by
      rw [moment_eq_weighted, counts, halves_sum]
      rfl
    have number : moment 0 (next.histLrt.take binSizeLrt) = 255 := by
      rw [moment_eq_weighted, weightedCount_take, counts, halves_sum]
      rfl
    rw [squares, number] at overflow
    omega

/-- A window with half of its frames in the last bin overflows. -/
theorem not_extraction_kept_halves :
    ¬AlongRun processCore ExtractionKept (initCore .narrow)
        ((halves 255 ++ [0]).map binFrame ++ [binFrame 0]) := by
  intro along
  obtain ⟨inst, reached, windowed, overflows⟩ := not_squaresFit_halves
  exact
    overflows (windowed.extractionKept_iff.mp (along.last reached))

end FeatureCore

end ApmSdk.Nsx
