import ApmSdk.LabelledPath
import ApmSdk.SquareRoot
import Mathlib.Algebra.Order.Ring.Abs

namespace ApmSdk.Agc

/-!
# Exactness of the voice activity detector

`WebRtcAgc_ProcessVad` keeps a filter state, two means and two variances in fields of 16
and 32 bits, over unboundedly many frames.  The same statistics over exact integers are
defined here; the two agree in every run up to three places where a value can leave its
type, and these are the conditions under which a call is exact.
-/

/-- A value of an `int16_t`. -/
def Fits16 (value : Int) : Prop :=
  -(2 ^ 15) ≤ value ∧ value < 2 ^ 15

/-- A value of an `int32_t`. -/
def Fits32 (value : Int) : Prop :=
  -(2 ^ 31) ≤ value ∧ value < 2 ^ 31

instance (value : Int) : Decidable (Fits16 value) :=
  inferInstanceAs (Decidable (_ ∧ _))

instance (value : Int) : Decidable (Fits32 value) :=
  inferInstanceAs (Decidable (_ ∧ _))

theorem Fits16.int16_eq
    {value : Int}
    (fits : Fits16 value) :
    int16 value = value :=
  int16_of_bounds fits.1 fits.2

theorem Fits32.int32_eq
    {value : Int}
    (fits : Fits32 value) :
    int32 value = value :=
  int32_of_bounds fits.1 fits.2

/-! ## The frame at 4 kHz -/

/-- A frame of the detector: 10 ms at 8 or 16 kHz. -/
structure VadFrame where
  samples : List Int
  sampled : ∀ sample ∈ samples, Fits16 sample
  size : samples.length = 80 ∨ samples.length = 160

/-- The samples at 4 kHz of some subframes, after those that are given, and the
decimator after them. -/
def decimateFrom
    (input : List Int)
    (nrSamples : Nat)
    (decimated : List Int × FilterState)
    (subfrs : List Nat) : List Int × FilterState :=
  subfrs.foldl
    (fun (samples, downState) subfr =>
      let (next, downState) :=
        downsampleBy2 (AgcVad.subframe input nrSamples subfr) downState
      (samples ++ next, downState))
    decimated

/-- The samples at 4 kHz of a frame, and the decimator after it. -/
def decimate
    (downState : FilterState)
    (input : List Int)
    (nrSamples : Nat) : List Int × FilterState :=
  decimateFrom input nrSamples ([], downState) (List.range 10)

/-- The filter runs over the subframes as over one list of samples. -/
theorem subframes_eq
    (downState : FilterState)
    (hpState : Int)
    (input : List Int)
    (nrSamples : Nat) :
    AgcVad.subframes downState hpState input nrSamples =
      ((decimate downState input nrSamples).2,
        AgcVad.highPass (decimate downState input nrSamples).1 hpState 0) := by
  have folded
      (subfrs : List Nat)
      (samples : List Int)
      (reached : FilterState) :
      subfrs.foldl
          (fun state subfr =>
            let halved :=
              downsampleBy2 (AgcVad.subframe input nrSamples subfr) state.1
            (halved.2, AgcVad.highPass halved.1 state.2.1 state.2.2))
          (reached, AgcVad.highPass samples hpState 0) =
        ((decimateFrom input nrSamples (samples, reached) subfrs).2,
          AgcVad.highPass
            (decimateFrom input nrSamples (samples, reached) subfrs).1
            hpState 0) := by
    induction subfrs generalizing samples reached with
    | nil =>
        rfl
    | cons subfr rest inductionHypothesis =>
        have joined :
            AgcVad.highPass
                (downsampleBy2 (AgcVad.subframe input nrSamples subfr)
                  reached).1
                (AgcVad.highPass samples hpState 0).1
                (AgcVad.highPass samples hpState 0).2 =
              AgcVad.highPass
                (samples ++
                  (downsampleBy2 (AgcVad.subframe input nrSamples subfr)
                    reached).1)
                hpState 0 :=
          (List.foldl_append ..).symm
        rw [List.foldl_cons]
        dsimp only
        rw [joined, inductionHypothesis]
        rfl
  exact folded (List.range 10) [] downState

/-- Every sample of the decimator is saturated, and there is one for two of its input. -/
theorem downsampleBy2_sampled
    (samples : List Int)
    (filtState : FilterState) :
    (∀ sample ∈ (downsampleBy2 samples filtState).1, Fits16 sample) ∧
      2 * (downsampleBy2 samples filtState).1.length ≤ samples.length := by
  induction samples, filtState using downsampleBy2.induct with
  | case1 first second rest filtState sample next decimated _ _ _
      inductionHypothesis =>
      have unfolded :
          (downsampleBy2 (first :: second :: rest) filtState).1 =
            sample :: (downsampleBy2 rest next).1 := by
        rw [downsampleBy2, decimated]
      have saturated : Fits16 sample := by
        have isSample : (filtState.decimate first second).1 = sample := by
          rw [decimated]
        rw [← isSample]
        unfold FilterState.decimate satW32ToW16 Fits16
        dsimp only
        split
        · decide
        · split
          · decide
          · omega
      rw [unfolded, List.forall_mem_cons, List.length_cons, List.length_cons,
        List.length_cons]
      exact ⟨⟨saturated, inductionHypothesis.1⟩, by omega⟩
  | case2 samples filtState short =>
      rw [downsampleBy2]
      · exact ⟨by simp, Nat.zero_le _⟩
      · exact short

/-- A subframe has eight samples at 8 kHz. -/
theorem length_subframe_le
    (input : List Int)
    (nrSamples subfr : Nat) :
    (AgcVad.subframe input nrSamples subfr).length ≤ 8 := by
  unfold AgcVad.subframe
  split
  · simp
  · exact List.length_take_le ..

/-- A frame has forty samples at 4 kHz, of 16 bits. -/
theorem decimate_sampled
    (downState : FilterState)
    (input : List Int)
    (nrSamples : Nat) :
    (∀ sample ∈ (decimate downState input nrSamples).1, Fits16 sample) ∧
      (decimate downState input nrSamples).1.length ≤ 40 := by
  have bounded
      (subfrs : List Nat)
      (decimated : List Int × FilterState)
      (sampled : ∀ sample ∈ decimated.1, Fits16 sample) :
      (∀ sample ∈ (decimateFrom input nrSamples decimated subfrs).1,
          Fits16 sample) ∧
        (decimateFrom input nrSamples decimated subfrs).1.length ≤
          decimated.1.length + 4 * subfrs.length := by
    induction subfrs generalizing decimated with
    | nil =>
        exact ⟨sampled, Nat.le_refl _⟩
    | cons subfr rest inductionHypothesis =>
        obtain ⟨fits, few⟩ :=
          downsampleBy2_sampled (AgcVad.subframe input nrSamples subfr)
            decimated.2
        have subframe := length_subframe_le input nrSamples subfr
        obtain ⟨restFits, restFew⟩ :=
          inductionHypothesis
            (decimated.1 ++
                (downsampleBy2 (AgcVad.subframe input nrSamples subfr)
                  decimated.2).1,
              (downsampleBy2 (AgcVad.subframe input nrSamples subfr)
                decimated.2).2)
            (fun sample member =>
              (List.mem_append.mp member).elim (sampled sample)
                (fits sample))
        refine ⟨restFits, Nat.le_trans restFew ?_⟩
        rw [List.length_append, List.length_cons]
        omega
  exact bounded (List.range 10) ([], downState) (by simp)

/-! ## The energy of a frame -/

/-- The filter state after a sample, over exact integers. -/
def nextHpState (hpState sample : Int) : Int :=
  (600 * (sample + hpState)) >>> (10 : Nat) - sample

/-- The outputs of the high pass filter. -/
def filterOutputs : List Int → Int → List Int
  | [], _ => []
  | sample :: rest, hpState =>
      (sample + hpState) :: filterOutputs rest (nextHpState hpState sample)

/-- The filter state and the energy over exact integers. -/
def exactHighPass : List Int → Int → Int → Int × Int
  | [], hpState, nrg => (hpState, nrg)
  | sample :: rest, hpState, nrg =>
      exactHighPass rest (nextHpState hpState sample)
        (nrg + ((sample + hpState) * (sample + hpState)) >>> (6 : Nat))

/-- What the loop over the samples must do: no product or sum overflows, and the filter
state is not cut. -/
def SamplesExact : List Int → Int → Int → Prop
  | [], _, _ => True
  | sample :: rest, hpState, nrg =>
      (Fits32 (600 * (sample + hpState)) ∧
          Fits16 (nextHpState hpState sample) ∧
          Fits32 ((sample + hpState) * (sample + hpState)) ∧
          Fits32
            (nrg +
              ((sample + hpState) * (sample + hpState)) >>> (6 : Nat))) ∧
        SamplesExact rest (nextHpState hpState sample)
          (nrg + ((sample + hpState) * (sample + hpState)) >>> (6 : Nat))

/-- The filter state is a weighted mean of two values of 16 bits. -/
theorem nextHpState_fits
    {hpState sample : Int}
    (state : Fits16 hpState)
    (sampled : Fits16 sample) :
    Fits16 (nextHpState hpState sample) := by
  unfold nextHpState Fits16 at *
  rw [Int.shiftRight_eq_div_pow]
  omega

/-- The squares of 32 bits are those of numbers up to 46340. -/
theorem square_fits_iff (out : Int) :
    Fits32 (out * out) ↔ |out| ≤ 46340 := by
  have nonneg : 0 ≤ out * out := mul_self_nonneg out
  have magnitude : |out| * |out| = out * out := abs_mul_abs_self out
  constructor
  · intro fits
    by_contra large
    have square : 46341 * 46341 ≤ |out| * |out| :=
      mul_le_mul (by omega) (by omega) (by decide) (abs_nonneg out)
    have upper := fits.2
    omega
  · intro small
    have square : |out| * |out| ≤ 46340 * 46340 :=
      mul_le_mul small small (abs_nonneg out) (by decide)
    exact ⟨by omega, by omega⟩

/-- The part of the energy that one output adds. -/
theorem addedEnergy_bounds
    {out : Int}
    (small : |out| ≤ 46340) :
    0 ≤ (out * out) >>> (6 : Nat) ∧ (out * out) >>> (6 : Nat) < 2 ^ 25 := by
  have fits := (square_fits_iff out).mpr small
  have nonneg : 0 ≤ out * out := mul_self_nonneg out
  have upper := fits.2
  rw [Int.shiftRight_eq_div_pow]
  omega

/-- The loop over the samples is exact where every output of the filter has a square of
32 bits. -/
theorem samplesExact_iff
    {samples : List Int}
    {hpState nrg : Int}
    (sampled : ∀ sample ∈ samples, Fits16 sample)
    (state : Fits16 hpState)
    (nonneg : 0 ≤ nrg)
    (room : nrg + samples.length * 2 ^ 25 < 2 ^ 31) :
    SamplesExact samples hpState nrg ↔
      ∀ out ∈ filterOutputs samples hpState, |out| ≤ 46340 := by
  induction samples generalizing hpState nrg with
  | nil =>
      simp [SamplesExact, filterOutputs]
  | cons sample rest inductionHypothesis =>
      rw [List.forall_mem_cons] at sampled
      rw [List.length_cons] at room
      push_cast at room
      have next := nextHpState_fits state sampled.1
      have later
          (small : |sample + hpState| ≤ 46340) :
          SamplesExact rest (nextHpState hpState sample)
              (nrg +
                ((sample + hpState) * (sample + hpState)) >>> (6 : Nat)) ↔
            ∀ out ∈ filterOutputs rest (nextHpState hpState sample),
              |out| ≤ 46340 := by
        have added := addedEnergy_bounds small
        exact inductionHypothesis sampled.2 next (by omega) (by omega)
      rw [SamplesExact, filterOutputs, List.forall_mem_cons]
      constructor
      · rintro ⟨⟨-, -, square, -⟩, restExact⟩
        have small := (square_fits_iff _).mp square
        exact ⟨small, (later small).mp restExact⟩
      · rintro ⟨small, restSmall⟩
        have added := addedEnergy_bounds small
        have sum : Fits32 (600 * (sample + hpState)) := by
          have bounds := abs_le.mp small
          exact ⟨by omega, by omega⟩
        exact
          ⟨⟨sum, next, (square_fits_iff _).mpr small, by omega, by omega⟩,
            (later small).mpr restSmall⟩

/-- An exact loop computes the exact filter state and energy. -/
theorem SamplesExact.highPass_eq
    {samples : List Int}
    {hpState nrg : Int}
    (exact : SamplesExact samples hpState nrg) :
    AgcVad.highPass samples hpState nrg = exactHighPass samples hpState nrg := by
  induction samples generalizing hpState nrg with
  | nil =>
      rfl
  | cons sample rest inductionHypothesis =>
      obtain ⟨⟨-, state, square, sum⟩, restExact⟩ := exact
      rw [exactHighPass, ← inductionHypothesis restExact]
      unfold AgcVad.highPass
      rw [List.foldl_cons]
      dsimp only
      rw [square.int32_eq, sum.int32_eq]
      unfold nextHpState at state ⊢
      rw [state.int16_eq]

/-- The filter state has 16 bits whatever the samples. -/
theorem highPass_state_fits
    {samples : List Int}
    {hpState nrg : Int}
    (state : Fits16 hpState) :
    Fits16 (AgcVad.highPass samples hpState nrg).1 := by
  induction samples generalizing hpState nrg with
  | nil =>
      exact state
  | cons sample rest inductionHypothesis =>
      exact
        inductionHypothesis
          ⟨Int.le_bmod (by decide), Int.bmod_lt (by decide)⟩

/-! ## The statistics -/

/-- `dB`: the level of an energy, in Q10 of powers of four. -/
def level (nrg : Int) : Int :=
  (15 - (leadingZeros 32 (uint32 nrg) : Int)) * 2 ^ 11

theorem level_bounds (nrg : Int) :
    -(2 ^ 15) ≤ level nrg ∧ level nrg ≤ 30720 := by
  have few := leadingZeros_le 32 (uint32 nrg)
  unfold level
  omega

/-- The square of a standard deviation in Q10. -/
def spread (variance mean : Int) : Int :=
  variance * 2 ^ 12 - mean * mean

/-- What an estimate of a standard deviation must do. -/
structure SpreadExact (variance mean : Int) : Prop where
  shifted : Fits32 (variance * 2 ^ 12)
  square : Fits32 (mean * mean)
  difference : Fits32 (spread variance mean)
  root : Fits16 (sqrt (spread variance mean))

/-- A mean of 16 bits and a variance of 18 bits have a difference of 30 bits. -/
theorem spread_bounds
    {variance mean : Int}
    (nonneg : 0 ≤ variance)
    (upper : variance < 2 ^ 18)
    (fits : Fits16 mean)
    (lowest : mean = -(2 ^ 15) → 0 < variance) :
    mean * mean ≤ 2 ^ 30 ∧
      -(2 ^ 30) < spread variance mean ∧ spread variance mean < 2 ^ 30 := by
  obtain ⟨atLeast, below⟩ := fits
  have square : mean * mean ≤ 2 ^ 30 := by
    nlinarith
  have positive : 0 ≤ mean * mean := mul_self_nonneg mean
  unfold spread
  refine ⟨square, ?_, by omega⟩
  by_cases isLowest : mean = -(2 ^ 15)
  · have someVariance := lowest isLowest
    omega
  · have smaller : mean * mean ≤ (2 ^ 15 - 1) * (2 ^ 15 - 1) := by
      have above : -(2 ^ 15) < mean := by omega
      nlinarith
    omega

theorem spreadExact
    {variance mean : Int}
    (nonneg : 0 ≤ variance)
    (upper : variance < 2 ^ 18)
    (fits : Fits16 mean)
    (lowest : mean = -(2 ^ 15) → 0 < variance) :
    SpreadExact variance mean := by
  obtain ⟨square, atLeast, below⟩ :=
    spread_bounds nonneg upper fits lowest
  have positive : 0 ≤ mean * mean := mul_self_nonneg mean
  refine
    ⟨⟨by omega, by omega⟩, ⟨by omega, by omega⟩, ⟨by omega, by omega⟩, ?_⟩
  by_cases zero : spread variance mean = 0
  · rw [zero]
    decide
  · obtain ⟨rootPositive, rootBelow⟩ := sqrt_bounds atLeast below zero
    exact ⟨by omega, rootBelow⟩

namespace AgcVad

/-- The number of updates, at most `kAvgDecayTime`, that a frame counts as. -/
def updates (vad : AgcVad) : Int :=
  if vad.counter < avgDecayTime then vad.counter + 1 else vad.counter

/-- The short-term mean over exact integers. -/
def shortMean (vad : AgcVad) (dB : Int) : Int :=
  (vad.meanShortTerm * 15 + dB) >>> (4 : Nat)

/-- The short-term variance over exact integers. -/
def shortVariance (vad : AgcVad) (dB : Int) : Int :=
  Int.tdiv ((dB * dB) >>> (12 : Nat) + vad.varianceShortTerm * 15) 16

/-- The long-term mean over exact integers. -/
def longMean (vad : AgcVad) (dB : Int) : Int :=
  Int.tdiv (vad.meanLongTerm * vad.updates + dB) (vad.updates + 1)

/-- The long-term variance over exact integers. -/
def longVariance (vad : AgcVad) (dB : Int) : Int :=
  Int.tdiv ((dB * dB) >>> (12 : Nat) + vad.varianceLongTerm * vad.updates)
    (vad.updates + 1)

/-- The long-term standard deviation over exact integers. -/
def longDeviation (vad : AgcVad) (dB : Int) : Int :=
  sqrt (spread (vad.longVariance dB) (vad.longMean dB))

/-- The measure of voice activity before it is scaled and limited. -/
def activity (vad : AgcVad) (dB : Int) : Int :=
  Int.tdiv (3 * 2 ^ 12 * (dB - vad.longMean dB)) (vad.longDeviation dB) +
    (vad.logRatio * (13 * 2 ^ 12)) >>> (10 : Nat)

/-- The detector after a frame of some level, over exact integers. -/
def advanceExact
    (vad : AgcVad)
    (downState : FilterState)
    (hpState dB : Int) : AgcVad where
  downState
  hpState
  counter := vad.updates
  logRatio := limitLogRatio (vad.activity dB >>> (6 : Nat))
  meanLongTerm := vad.longMean dB
  varianceLongTerm := vad.longVariance dB
  stdLongTerm := vad.longDeviation dB
  meanShortTerm := vad.shortMean dB
  varianceShortTerm := vad.shortVariance dB
  stdShortTerm := sqrt (spread (vad.shortVariance dB) (vad.shortMean dB))

/-- The statistics of `WebRtcAgc_ProcessVad`, after the filters. -/
def advance
    (vad : AgcVad)
    (downState : FilterState)
    (hpState dB : Int) : AgcVad :=
  let counter :=
    if vad.counter < avgDecayTime then vad.counter + 1 else vad.counter
  let meanShortTerm := int16 ((vad.meanShortTerm * 15 + dB) >>> (4 : Nat))
  let varianceShortTerm :=
    Int.tdiv ((dB * dB) >>> (12 : Nat) + vad.varianceShortTerm * 15) 16
  let stdShortTerm :=
    int16 (sqrt (int32
      (varianceShortTerm * 2 ^ 12 - meanShortTerm * meanShortTerm)))
  let meanLongTerm :=
    divW32W16ResW16 (vad.meanLongTerm * counter + dB) (addSatW16 counter 1)
  let varianceLongTerm :=
    divW32W16 ((dB * dB) >>> (12 : Nat) + vad.varianceLongTerm * counter)
      (addSatW16 counter 1)
  let stdLongTerm :=
    int16 (sqrt (int32
      (varianceLongTerm * 2 ^ 12 - meanLongTerm * meanLongTerm)))
  let tmp32 := divW32W16 (3 * 2 ^ 12 * int16 (dB - meanLongTerm)) stdLongTerm
  let tmp32 := int32 (tmp32 + (vad.logRatio * (13 * 2 ^ 12)) >>> (10 : Nat))
  { downState
    hpState
    counter
    logRatio := limitLogRatio (int16 (tmp32 >>> (6 : Nat)))
    meanLongTerm
    varianceLongTerm
    stdLongTerm
    meanShortTerm
    varianceShortTerm
    stdShortTerm }

theorem process_eq
    (vad : AgcVad)
    (input : List Int)
    (nrSamples : Nat) :
    vad.process input nrSamples =
      vad.advance (decimate vad.downState input nrSamples).2
        (highPass (decimate vad.downState input nrSamples).1 vad.hpState 0).1
        (level
          (highPass (decimate vad.downState input nrSamples).1
            vad.hpState 0).2) := by
  unfold process
  rw [subframes_eq]
  rfl

/-- A detector that can be reached: every field has the width of its statistic, and the
short-term variance is large where the mean is low. -/
structure InRange (vad : AgcVad) : Prop where
  hpState : Fits16 vad.hpState
  counter : 3 ≤ vad.counter ∧ vad.counter ≤ avgDecayTime
  logRatio : -2048 ≤ vad.logRatio ∧ vad.logRatio ≤ 2048
  meanLongTerm : -(2 ^ 15) < vad.meanLongTerm ∧ vad.meanLongTerm < 2 ^ 15
  varianceLongTerm :
    0 ≤ vad.varianceLongTerm ∧ vad.varianceLongTerm < 2 ^ 18
  meanShortTerm : Fits16 vad.meanShortTerm
  varianceShortTerm :
    0 ≤ vad.varianceShortTerm ∧ vad.varianceShortTerm < 2 ^ 18
  lowMean :
    -16 * vad.meanShortTerm - 262399 ≤ vad.varianceShortTerm

theorem inRange_init : init.InRange := by
  constructor <;> decide

/-- A level has the range of `dB`. -/
def IsLevel (dB : Int) : Prop :=
  -(2 ^ 15) ≤ dB ∧ dB ≤ 30720

/-- The square of a level, in Q8. -/
theorem IsLevel.square_bounds
    {dB : Int}
    (isLevel : IsLevel dB) :
    0 ≤ dB * dB ∧ dB * dB ≤ 2 ^ 30 ∧
      0 ≤ (dB * dB) >>> (12 : Nat) ∧ (dB * dB) >>> (12 : Nat) ≤ 2 ^ 18 ∧
        -16 * dB - 2 ^ 18 ≤ (dB * dB) >>> (12 : Nat) := by
  obtain ⟨lower, upper⟩ := isLevel
  have nonneg : 0 ≤ dB * dB := mul_self_nonneg dB
  have atMost : dB * dB ≤ 2 ^ 30 := by
    nlinarith
  -- the tangent of the parabola at the lowest level
  have tangent : 2 ^ 12 * (-16 * dB - 2 ^ 18) ≤ dB * dB := by
    have square : 0 ≤ (dB + 2 ^ 15) * (dB + 2 ^ 15) := mul_self_nonneg _
    linarith
  rw [Int.shiftRight_eq_div_pow]
  generalize dB * dB = square at *
  omega

section Bounds

variable {vad : AgcVad} {dB : Int}

theorem InRange.updates_bounds
    (inRange : vad.InRange) :
    3 ≤ vad.updates ∧ vad.updates ≤ avgDecayTime := by
  have bounds := inRange.counter
  have decay : avgDecayTime = 250 := rfl
  unfold updates
  split <;> omega

theorem InRange.longMean_bounds
    (inRange : vad.InRange)
    (isLevel : IsLevel dB) :
    -(2 ^ 15) < vad.longMean dB ∧ vad.longMean dB < 2 ^ 15 := by
  obtain ⟨few, -⟩ := inRange.updates_bounds
  obtain ⟨lower, upper⟩ := inRange.meanLongTerm
  obtain ⟨levelLower, levelUpper⟩ := isLevel
  have least :
      (-(2 ^ 15) + 1) * vad.updates ≤ vad.meanLongTerm * vad.updates :=
    Int.mul_le_mul_of_nonneg_right lower (by omega)
  have most :
      vad.meanLongTerm * vad.updates ≤ (2 ^ 15 - 1) * vad.updates :=
    Int.mul_le_mul_of_nonneg_right (by omega) (by omega)
  unfold longMean
  rw [neg_lt_tdiv_iff (by omega) (by decide),
    tdiv_lt_iff (by omega) (by decide)]
  omega

theorem InRange.longVariance_bounds
    (inRange : vad.InRange)
    (isLevel : IsLevel dB) :
    0 ≤ vad.longVariance dB ∧ vad.longVariance dB < 2 ^ 18 := by
  obtain ⟨few, -⟩ := inRange.updates_bounds
  obtain ⟨lower, upper⟩ := inRange.varianceLongTerm
  obtain ⟨-, -, levelLower, levelUpper, -⟩ := isLevel.square_bounds
  have least : 0 ≤ vad.varianceLongTerm * vad.updates :=
    Int.mul_nonneg lower (by omega)
  have most :
      vad.varianceLongTerm * vad.updates ≤ (2 ^ 18 - 1) * vad.updates :=
    Int.mul_le_mul_of_nonneg_right (by omega) (by omega)
  unfold longVariance
  rw [tdiv_lt_iff (by omega) (by decide)]
  exact ⟨Int.tdiv_nonneg (by omega) (by omega), by omega⟩

theorem InRange.shortMean_fits
    (inRange : vad.InRange)
    (isLevel : IsLevel dB) :
    Fits16 (vad.shortMean dB) := by
  obtain ⟨lower, upper⟩ := inRange.meanShortTerm
  obtain ⟨levelLower, levelUpper⟩ := isLevel
  unfold shortMean Fits16
  rw [Int.shiftRight_eq_div_pow]
  omega

theorem InRange.shortVariance_bounds
    (inRange : vad.InRange)
    (isLevel : IsLevel dB) :
    0 ≤ vad.shortVariance dB ∧ vad.shortVariance dB < 2 ^ 18 ∧
      -16 * vad.shortMean dB - 262399 ≤ vad.shortVariance dB := by
  obtain ⟨lower, upper⟩ := inRange.varianceShortTerm
  obtain ⟨-, -, levelLower, levelUpper, tangent⟩ := isLevel.square_bounds
  have low := inRange.lowMean
  unfold shortVariance shortMean
  rw [Int.tdiv_eq_ediv_of_nonneg (by omega), Int.shiftRight_eq_div_pow _ 4]
  omega

/-- The counter never saturates. -/
theorem InRange.addSatW16_eq
    (inRange : vad.InRange) :
    addSatW16 vad.updates 1 = vad.updates + 1 := by
  obtain ⟨few, many⟩ := inRange.updates_bounds
  have decay : avgDecayTime = 250 := rfl
  unfold addSatW16 satW32ToW16
  rw [if_neg (by omega), if_neg (by omega)]

/-- The long-term estimate is exact, and so are its fields. -/
theorem InRange.longSpread
    (inRange : vad.InRange)
    (isLevel : IsLevel dB) :
    SpreadExact (vad.longVariance dB) (vad.longMean dB) := by
  obtain ⟨lower, upper⟩ := inRange.longVariance_bounds isLevel
  obtain ⟨above, below⟩ := inRange.longMean_bounds isLevel
  exact
    spreadExact lower upper ⟨above.le, below⟩
      (fun lowest => absurd lowest (by omega))

theorem InRange.shortSpread
    (inRange : vad.InRange)
    (isLevel : IsLevel dB) :
    SpreadExact (vad.shortVariance dB) (vad.shortMean dB) := by
  obtain ⟨lower, upper, low⟩ := inRange.shortVariance_bounds isLevel
  exact
    spreadExact lower upper (inRange.shortMean_fits isLevel)
      (fun lowest => by omega)

/-- The long-term deviation is a number of 15 bits. -/
theorem InRange.longDeviation_bounds
    (inRange : vad.InRange)
    (isLevel : IsLevel dB) :
    0 ≤ vad.longDeviation dB ∧ vad.longDeviation dB < 2 ^ 15 := by
  obtain ⟨lower, upper⟩ := inRange.longVariance_bounds isLevel
  obtain ⟨above, below⟩ := inRange.longMean_bounds isLevel
  obtain ⟨-, atLeast, less⟩ :=
    spread_bounds lower upper ⟨above.le, below⟩
      (fun lowest => absurd lowest (by omega))
  unfold longDeviation
  by_cases zero : spread (vad.longVariance dB) (vad.longMean dB) = 0
  · rw [zero]
    decide
  · obtain ⟨rootPositive, rootBelow⟩ := sqrt_bounds atLeast less zero
    exact ⟨by omega, rootBelow⟩

/-- The level is near enough to the mean before the frame. -/
def NearMean (vad : AgcVad) (dB : Int) : Prop :=
  -(32769 * (vad.updates + 1)) < vad.updates * (dB - vad.meanLongTerm) ∧
    vad.updates * (dB - vad.meanLongTerm) < 32768 * (vad.updates + 1)

instance (vad : AgcVad) (dB : Int) : Decidable (NearMean vad dB) :=
  inferInstanceAs (Decidable (_ ∧ _))

/-- The deviation of the level keeps its value in 16 bits where the level is near the
mean. -/
theorem InRange.deviation_fits_iff
    (inRange : vad.InRange)
    (isLevel : IsLevel dB) :
    Fits16 (dB - vad.longMean dB) ↔ vad.NearMean dB := by
  obtain ⟨few, -⟩ := inRange.updates_bounds
  obtain ⟨levelLower, levelUpper⟩ := isLevel
  have above :
      -(32768 - dB) < vad.longMean dB ↔
        -((32768 - dB) * (vad.updates + 1)) <
          vad.meanLongTerm * vad.updates + dB :=
    neg_lt_tdiv_iff (by omega) (by omega)
  have below :
      vad.longMean dB < dB + 32769 ↔
        vad.meanLongTerm * vad.updates + dB <
          (dB + 32769) * (vad.updates + 1) :=
    tdiv_lt_iff (by omega) (by omega)
  have fits :
      Fits16 (dB - vad.longMean dB) ↔
        vad.longMean dB < dB + 32769 ∧ -(32768 - dB) < vad.longMean dB := by
    unfold Fits16
    omega
  rw [fits, above, below]
  unfold NearMean
  constructor
  · rintro ⟨upper, lower⟩
    constructor <;> linarith
  · rintro ⟨lower, upper⟩
    constructor <;> linarith

/-- The deviation of the level is near enough to the standard deviation. -/
def NearDeviation (vad : AgcVad) (dB : Int) : Prop :=
  -((2 ^ 21 + 52 * vad.logRatio + 1) * vad.longDeviation dB) <
      3 * 2 ^ 12 * (dB - vad.longMean dB) ∧
    3 * 2 ^ 12 * (dB - vad.longMean dB) <
      (2 ^ 21 - 52 * vad.logRatio) * vad.longDeviation dB

instance (vad : AgcVad) (dB : Int) : Decidable (NearDeviation vad dB) :=
  inferInstanceAs (Decidable (_ ∧ _))

/-- The old measure counts for 13/16, in Q16. -/
theorem carried_eq (logRatio : Int) :
    (logRatio * (13 * 2 ^ 12)) >>> (10 : Nat) = 52 * logRatio := by
  rw [Int.shiftRight_eq_div_pow]
  omega

/-- The measure keeps its value in 16 bits, by a divisor other than zero, where the
deviation is near the standard deviation. -/
theorem InRange.activity_fits_iff
    (inRange : vad.InRange)
    (isLevel : IsLevel dB) :
    (vad.longDeviation dB ≠ 0 ∧ Fits16 (vad.activity dB >>> (6 : Nat))) ↔
      vad.NearDeviation dB := by
  obtain ⟨ratioLower, ratioUpper⟩ := inRange.logRatio
  obtain ⟨nonneg, -⟩ := inRange.longDeviation_bounds isLevel
  unfold NearDeviation
  by_cases zero : vad.longDeviation dB = 0
  · rw [zero]
    omega
  have positive : 0 < vad.longDeviation dB := by omega
  rw [← neg_lt_tdiv_iff positive (by omega),
    ← tdiv_lt_iff positive (by omega)]
  unfold activity Fits16
  rw [carried_eq, Int.shiftRight_eq_div_pow]
  omega

/-- All statistics but the measure are exact from any reachable detector. -/
theorem InRange.advance_eq
    (inRange : vad.InRange)
    (isLevel : IsLevel dB)
    (downState : FilterState)
    (hpState : Int) :
    vad.advance downState hpState dB =
      { vad.advanceExact downState hpState dB with
        logRatio :=
          limitLogRatio
            (int16
              (int32
                (divW32W16 (3 * 2 ^ 12 * int16 (dB - vad.longMean dB))
                    (vad.longDeviation dB) +
                  (vad.logRatio * (13 * 2 ^ 12)) >>> (10 : Nat)) >>>
                (6 : Nat))) } := by
  obtain ⟨few, -⟩ := inRange.updates_bounds
  obtain ⟨above, below⟩ := inRange.longMean_bounds isLevel
  have counted : vad.updates + 1 ≠ 0 := by omega
  have narrowMean : int16 (vad.shortMean dB) = vad.shortMean dB :=
    (inRange.shortMean_fits isLevel).int16_eq
  have shortStd :
      int16 (sqrt (int32 (spread (vad.shortVariance dB) (vad.shortMean dB)))) =
        sqrt (spread (vad.shortVariance dB) (vad.shortMean dB)) := by
    rw [(inRange.shortSpread isLevel).difference.int32_eq,
      (inRange.shortSpread isLevel).root.int16_eq]
  have dividedMean :
      divW32W16ResW16 (vad.meanLongTerm * vad.updates + dB)
          (addSatW16 vad.updates 1) =
        vad.longMean dB := by
    unfold divW32W16ResW16
    rw [inRange.addSatW16_eq, if_pos counted]
    exact int16_of_bounds above.le below
  have dividedVariance :
      divW32W16
          ((dB * dB) >>> (12 : Nat) + vad.varianceLongTerm * vad.updates)
          (addSatW16 vad.updates 1) =
        vad.longVariance dB := by
    unfold divW32W16
    rw [inRange.addSatW16_eq, if_pos counted]
    rfl
  have longStd :
      int16 (sqrt (int32 (spread (vad.longVariance dB) (vad.longMean dB)))) =
        vad.longDeviation dB := by
    rw [(inRange.longSpread isLevel).difference.int32_eq]
    exact (inRange.longSpread isLevel).root.int16_eq
  unfold updates at dividedMean dividedVariance
  unfold shortMean at narrowMean shortStd
  unfold spread at shortStd longStd
  unfold advance
  dsimp only
  rw [narrowMean, dividedMean, dividedVariance, longStd]
  unfold advanceExact shortMean spread
  rw [← shortStd]
  rfl

theorem limitLogRatio_bounds (logRatio : Int) :
    -2048 ≤ limitLogRatio logRatio ∧ limitLogRatio logRatio ≤ 2048 := by
  unfold limitLogRatio
  split
  · decide
  · split <;> omega

/-- A frame of any level leaves the detector in range. -/
theorem InRange.advance
    {downState : FilterState}
    {hpState : Int}
    (inRange : vad.InRange)
    (isLevel : IsLevel dB)
    (state : Fits16 hpState) :
    (vad.advance downState hpState dB).InRange := by
  obtain ⟨few, many⟩ := inRange.updates_bounds
  obtain ⟨lower, upper, low⟩ := inRange.shortVariance_bounds isLevel
  rw [inRange.advance_eq isLevel]
  exact
    { hpState := state
      counter := ⟨few, many⟩
      logRatio := limitLogRatio_bounds _
      meanLongTerm := inRange.longMean_bounds isLevel
      varianceLongTerm := inRange.longVariance_bounds isLevel
      meanShortTerm := inRange.shortMean_fits isLevel
      varianceShortTerm := ⟨lower, upper⟩
      lowMean := low }

/-- So does every call of `WebRtcAgc_ProcessVad`. -/
theorem InRange.process
    (inRange : vad.InRange)
    (input : List Int)
    (nrSamples : Nat) :
    (vad.process input nrSamples).InRange := by
  rw [process_eq]
  exact
    inRange.advance (level_bounds _) (highPass_state_fits inRange.hpState)

end Bounds

/-! ## Calls and runs -/

/-- What the statistics of a frame must do: no product or sum overflows, no field cuts
its value, and no divisor is zero. -/
structure StatisticsExact (vad : AgcVad) (dB : Int) : Prop where
  level : Fits16 dB
  square : Fits32 (dB * dB)
  updates : Fits16 (vad.updates + 1)
  shortMeanSum : Fits32 (vad.meanShortTerm * 15 + dB)
  shortMean : Fits16 (vad.shortMean dB)
  shortVarianceSum :
    Fits32 ((dB * dB) >>> (12 : Nat) + vad.varianceShortTerm * 15)
  shortSpread : SpreadExact (vad.shortVariance dB) (vad.shortMean dB)
  longMeanSum : Fits32 (vad.meanLongTerm * vad.updates + dB)
  longMean : Fits16 (vad.longMean dB)
  longVarianceSum :
    Fits32 ((dB * dB) >>> (12 : Nat) + vad.varianceLongTerm * vad.updates)
  longSpread : SpreadExact (vad.longVariance dB) (vad.longMean dB)
  divisors : vad.updates + 1 ≠ 0 ∧ vad.longDeviation dB ≠ 0
  deviation : Fits16 (dB - vad.longMean dB)
  scaled : Fits32 (3 * 2 ^ 12 * (dB - vad.longMean dB))
  carried : Fits32 (vad.logRatio * (13 * 2 ^ 12))
  activity : Fits32 (vad.activity dB)
  narrowed : Fits16 (vad.activity dB >>> (6 : Nat))

/-- The statistics are exact where the level is near the mean and the deviation. -/
theorem InRange.statisticsExact_iff
    {vad : AgcVad}
    {dB : Int}
    (inRange : vad.InRange)
    (isLevel : IsLevel dB) :
    vad.StatisticsExact dB ↔ vad.NearMean dB ∧ vad.NearDeviation dB := by
  constructor
  · intro exact
    exact
      ⟨(inRange.deviation_fits_iff isLevel).mp exact.deviation,
        (inRange.activity_fits_iff isLevel).mp
          ⟨exact.divisors.2, exact.narrowed⟩⟩
  · rintro ⟨nearMean, nearDeviation⟩
    have deviation := (inRange.deviation_fits_iff isLevel).mpr nearMean
    obtain ⟨divisor, narrowed⟩ :=
      (inRange.activity_fits_iff isLevel).mpr nearDeviation
    obtain ⟨few, many⟩ := inRange.updates_bounds
    have decay : avgDecayTime = 250 := rfl
    obtain ⟨above, below⟩ := inRange.longMean_bounds isLevel
    obtain ⟨squareLower, squareUpper, partLower, partUpper, -⟩ :=
      isLevel.square_bounds
    obtain ⟨meanLower, meanUpper⟩ := inRange.meanLongTerm
    obtain ⟨varianceLower, varianceUpper⟩ := inRange.varianceLongTerm
    obtain ⟨shortLower, shortUpper⟩ := inRange.meanShortTerm
    obtain ⟨shortVarianceLower, shortVarianceUpper⟩ :=
      inRange.varianceShortTerm
    obtain ⟨ratioLower, ratioUpper⟩ := inRange.logRatio
    obtain ⟨levelLower, levelUpper⟩ := isLevel
    have meanProduct : |vad.meanLongTerm * vad.updates| ≤ 2 ^ 15 * 250 := by
      rw [abs_mul]
      exact
        mul_le_mul (abs_le.mpr ⟨by omega, by omega⟩)
          (abs_le.mpr ⟨by omega, by omega⟩) (abs_nonneg _) (by decide)
    obtain ⟨productLower, productUpper⟩ := abs_le.mp meanProduct
    have varianceProduct :
        vad.varianceLongTerm * vad.updates ≤ 2 ^ 18 * 250 :=
      mul_le_mul (by omega) (by omega) (by omega) (by decide)
    have variancePositive : 0 ≤ vad.varianceLongTerm * vad.updates :=
      Int.mul_nonneg varianceLower (by omega)
    have whole : Fits32 (vad.activity dB) := by
      unfold Fits16 at narrowed
      rw [Int.shiftRight_eq_div_pow] at narrowed
      unfold Fits32
      omega
    exact
      { level := ⟨levelLower, by omega⟩
        square := ⟨by omega, by omega⟩
        updates := ⟨by omega, by omega⟩
        shortMeanSum := ⟨by omega, by omega⟩
        shortMean := inRange.shortMean_fits ⟨levelLower, levelUpper⟩
        shortVarianceSum := ⟨by omega, by omega⟩
        shortSpread := inRange.shortSpread ⟨levelLower, levelUpper⟩
        longMeanSum := ⟨by omega, by omega⟩
        longMean := ⟨above.le, below⟩
        longVarianceSum := ⟨by omega, by omega⟩
        longSpread := inRange.longSpread ⟨levelLower, levelUpper⟩
        divisors := ⟨by omega, divisor⟩
        deviation
        scaled := ⟨by have := deviation.1; omega, by have := deviation.2; omega⟩
        carried := ⟨by omega, by omega⟩
        activity := whole
        narrowed }

/-- Exact statistics are what the code computes. -/
theorem StatisticsExact.advance_eq
    {vad : AgcVad}
    {dB : Int}
    (exact : vad.StatisticsExact dB)
    (inRange : vad.InRange)
    (isLevel : IsLevel dB)
    (downState : FilterState)
    (hpState : Int) :
    vad.advance downState hpState dB =
      vad.advanceExact downState hpState dB := by
  have measure :
      int16
          (int32
            (divW32W16 (3 * 2 ^ 12 * int16 (dB - vad.longMean dB))
                (vad.longDeviation dB) +
              (vad.logRatio * (13 * 2 ^ 12)) >>> (10 : Nat)) >>>
            (6 : Nat)) =
        vad.activity dB >>> (6 : Nat) := by
    unfold divW32W16
    rw [exact.deviation.int16_eq, if_pos exact.divisors.2]
    change int16 (int32 (vad.activity dB) >>> (6 : Nat)) = _
    rw [exact.activity.int32_eq, exact.narrowed.int16_eq]
  rw [inRange.advance_eq isLevel, measure]
  rfl

/-- The energy of a frame over exact integers, with the filter state after it. -/
def filtered (vad : AgcVad) (frame : VadFrame) : Int × Int :=
  exactHighPass
    (decimate vad.downState frame.samples frame.samples.length).1
    vad.hpState 0

/-- The level of a frame over exact integers. -/
def frameLevel (vad : AgcVad) (frame : VadFrame) : Int :=
  level (vad.filtered frame).2

/-- A call over exact integers. -/
def processExact (vad : AgcVad) (frame : VadFrame) : AgcVad :=
  vad.advanceExact
    (decimate vad.downState frame.samples frame.samples.length).2
    (vad.filtered frame).1 (vad.frameLevel frame)

/-- What a call must do: the energy and the statistics are exact, and the detector
afterwards, with its measure, is the one of exact integers. -/
structure ProcessExact (vad : AgcVad) (frame : VadFrame) : Prop where
  energy :
    SamplesExact
      (decimate vad.downState frame.samples frame.samples.length).1
      vad.hpState 0
  statistics : vad.StatisticsExact (vad.frameLevel frame)
  result :
    vad.process frame.samples frame.samples.length = vad.processExact frame

/-- A frame that the detector measures exactly: it is not too loud for the filter, and
its level is near the mean and the deviation. -/
structure Measurable (vad : AgcVad) (frame : VadFrame) : Prop where
  quiet :
    ∀ out ∈
        filterOutputs
          (decimate vad.downState frame.samples frame.samples.length).1
          vad.hpState,
      |out| ≤ 46340
  nearMean : vad.NearMean (vad.frameLevel frame)
  nearDeviation : vad.NearDeviation (vad.frameLevel frame)

/-- A call is exact where its frame is measurable. -/
theorem InRange.processExact_iff
    {vad : AgcVad}
    (inRange : vad.InRange)
    (frame : VadFrame) :
    vad.ProcessExact frame ↔ vad.Measurable frame := by
  have isLevel : IsLevel (vad.frameLevel frame) := level_bounds _
  obtain ⟨sampled, few⟩ :=
    decimate_sampled vad.downState frame.samples frame.samples.length
  have energy :=
    samplesExact_iff sampled inRange.hpState (Int.le_refl 0) (by omega)
  have statistics := inRange.statisticsExact_iff isLevel
  constructor
  · intro exact
    obtain ⟨nearMean, nearDeviation⟩ := statistics.mp exact.statistics
    exact ⟨energy.mp exact.energy, nearMean, nearDeviation⟩
  · intro measurable
    have samples := energy.mpr measurable.quiet
    have whole :=
      statistics.mpr ⟨measurable.nearMean, measurable.nearDeviation⟩
    refine ⟨samples, whole, ?_⟩
    rw [process_eq, samples.highPass_eq]
    exact whole.advance_eq inRange isLevel _ _

/-- A call of `WebRtcAgc_ProcessVad` on a frame. -/
def perform (vad : AgcVad) (frame : VadFrame) : Option AgcVad :=
  some (vad.process frame.samples frame.samples.length)

/--
In every run of the detector from `WebRtcAgc_InitVad`, all calls are exact if and only
if every frame is measurable: the outputs of the high pass filter have squares of 32
bits, and the level is near the long-term mean and the long-term deviation.
-/
theorem runExact_iff_measurable
    {moves : List (Move AgcVad VadFrame)}
    {final : AgcVad}
    (path : Path (stepOf perform) init moves final) :
    (∀ move ∈ moves, move.source.ProcessExact move.label) ↔
      ∀ move ∈ moves, move.source.Measurable move.label :=
  Path.forall_move_iff_forall_guard InRange
    (fun vad frame _ => vad.ProcessExact frame) Measurable
    (fun inRange _ => inRange.processExact_iff _)
    (fun inRange _ performed => by
      obtain rfl := Option.some.inj performed
      exact inRange.process _ _)
    inRange_init path

/-- A frame of one value at 8 kHz. -/
def constantFrame (sample : Int) (fits : Fits16 sample) : VadFrame where
  samples := List.replicate 80 sample
  sampled := by
    intro value member
    obtain rfl := List.eq_of_mem_replicate member
    exact fits
  size := .inl List.length_replicate

theorem runExact_constantFrame :
    init.ProcessExact (constantFrame 1000 (by decide)) :=
  have path :
      Path (stepOf perform) init
        [⟨init, constantFrame 1000 (by decide),
          init.process (List.replicate 80 1000) 80⟩]
        (init.process (List.replicate 80 1000) 80) :=
    .single rfl
  (runExact_iff_measurable path).mpr
    (by
      intro move member
      obtain rfl := List.mem_singleton.mp member
      constructor
      · decide +kernel
      · decide +kernel
      · decide +kernel)
    _ (.head _)

/--
On a first frame of silence the level is 38502 below the long-term mean: cut to 16 bits
the deviation is positive, and the measure rises to 211 where it should fall to -302.
-/
theorem not_runExact_silence :
    ¬ ∀ (moves : List (Move AgcVad VadFrame)) (final : AgcVad),
        Path (stepOf perform) init moves final →
        ∀ move ∈ moves, move.source.ProcessExact move.label := by
  intro claimed
  have path :
      Path (stepOf perform) init
        [⟨init, constantFrame 0 (by decide),
          init.process (List.replicate 80 0) 80⟩]
        (init.process (List.replicate 80 0) 80) :=
    .single rfl
  have exact := claimed _ _ path _ (.head _)
  have ratio := congrArg AgcVad.logRatio exact.result
  revert ratio
  decide +kernel

end AgcVad

end ApmSdk.Agc
