import ApmSdk.VadFilterbank

namespace ApmSdk.Vad

open Resample48khz (evens odds mem_of_mem_evens mem_of_mem_odds)

/-!
# What the filters of the voice detector can hold

An all-pass section feeds back a share of its state, and the input makes up for no more than
the rest.  Its state and outputs are then within a multiple of the largest input, and so are the
bands of a split.  The high-pass filter is followed over two samples.
-/

/-- A value stays within a bound on both sides. -/
abbrev Within (bound value : Int) : Prop :=
  -bound ≤ value ∧ value ≤ bound

/-! ## A section -/

/-- The section of `AllPassFilter` without any wrap. -/
def allPass (coefficient : Int) : Transducer Int Int Int where
  output state32 sample := (state32 + coefficient * sample) / 2 ^ 16
  next state32 sample :=
    (sample * 2 ^ 14 - coefficient * ((state32 + coefficient * sample) / 2 ^ 16)) * 2

/-- How far the state can be from zero behind a sample. -/
def stateBound (coefficient inBound : Int) : Int :=
  (2 ^ 15 + coefficient) * inBound + 4 * 2 ^ 16

/-- The state within a frame: what is left of the stored one, or what a sample left. -/
def Carried (coefficient inBound state32 : Int) : Prop :=
  (2 ^ 16 ∣ state32 ∧ Within (stateBound coefficient inBound + 2 ^ 16) state32) ∨
    Within (stateBound coefficient inBound) state32

/-- The stored state between frames. -/
def Stored (coefficient inBound filterState : Int) : Prop :=
  Within (stateBound coefficient inBound + 2 ^ 16) (filterState * 2 ^ 16)

section AllPass

variable {coefficient inBound state32 sample : Int}

theorem Carried.within
    (carried : Carried coefficient inBound state32) :
    Within (stateBound coefficient inBound + 2 ^ 16) state32 := by
  rcases carried with ⟨-, within⟩ | ⟨lower, upper⟩
  · exact within
  · constructor <;> omega

/-- A sample leaves no more than the bound, and the output is within its share. -/
theorem allPass_step
    (range : 0 ≤ coefficient ∧ coefficient ≤ upperCoefficient)
    (carried : Carried coefficient inBound state32)
    (bounded : Within inBound sample) :
    Within (stateBound coefficient inBound) ((allPass coefficient).next state32 sample) ∧
      Within ((2 ^ 15 + 2 * coefficient) * inBound + 6 * 2 ^ 16)
        ((allPass coefficient).output state32 sample * 2 ^ 16) := by
  obtain ⟨stateLow, stateHigh⟩ := carried.within
  obtain ⟨low, high⟩ := bounded
  obtain ⟨nonneg, notAbove⟩ := range
  unfold upperCoefficient at notAbove
  unfold stateBound at *
  dsimp only [allPass]
  generalize isOut : (state32 + coefficient * sample) / 2 ^ 16 = out
  have cutLow : out * 2 ^ 16 ≤ state32 + coefficient * sample := by omega
  have cutHigh : state32 + coefficient * sample ≤ out * 2 ^ 16 + (2 ^ 16 - 1) := by omega
  have square : 0 ≤ 2 ^ 30 - coefficient * coefficient := by nlinarith
  have sampleLow := mul_le_mul_of_nonneg_left low nonneg
  have sampleHigh := mul_le_mul_of_nonneg_left high nonneg
  have restLow := mul_le_mul_of_nonneg_left low square
  have restHigh := mul_le_mul_of_nonneg_left high square
  have backLow := mul_le_mul_of_nonneg_left stateLow nonneg
  have backHigh := mul_le_mul_of_nonneg_left stateHigh nonneg
  have outLow := mul_le_mul_of_nonneg_left cutLow nonneg
  have outHigh := mul_le_mul_of_nonneg_left cutHigh nonneg
  refine ⟨⟨?_, ?_⟩, ?_, ?_⟩ <;> linarith

/-- The outputs for samples within a bound fit 16 bits. -/
structure BranchFits (coefficient inBound : Int) : Prop where
  nonneg : 0 ≤ inBound
  word : (2 ^ 15 + 2 * coefficient) * inBound + 6 * 2 ^ 16 < 2 ^ 31

/-- The state fits where the outputs do. -/
theorem stateBound_lt
    (range : 0 ≤ coefficient ∧ coefficient ≤ upperCoefficient)
    (fits : BranchFits coefficient inBound) :
    stateBound coefficient inBound + 2 ^ 17 < 2 ^ 31 := by
  obtain ⟨nonneg, word⟩ := fits
  have product : 0 ≤ coefficient * inBound := mul_nonneg range.1 nonneg
  unfold stateBound
  linarith

/-- Where the outputs fit no result of a section leaves its word. -/
theorem allPass_words
    (range : 0 ≤ coefficient ∧ coefficient ≤ upperCoefficient)
    (fits : BranchFits coefficient inBound)
    (carried : Carried coefficient inBound state32)
    (bounded : Within inBound sample) :
    Within (2 ^ 31 - 1) (state32 + coefficient * sample) ∧
      Within (2 ^ 15 - 1) ((allPass coefficient).output state32 sample) ∧
      Within (2 ^ 30 - 1) (sample * 2 ^ 14 -
        coefficient * (allPass coefficient).output state32 sample) := by
  obtain ⟨⟨nextLow, nextHigh⟩, outLow, outHigh⟩ := allPass_step range carried bounded
  have isNext :
      (allPass coefficient).next state32 sample =
        (sample * 2 ^ 14 - coefficient * (allPass coefficient).output state32 sample) * 2 :=
    rfl
  have small := stateBound_lt range fits
  have sumLow : -2 ^ 31 < state32 + coefficient * sample := by
    obtain ⟨stateLow, stateHigh⟩ := carried.within
    have sampleLow := mul_le_mul_of_nonneg_left bounded.1 range.1
    have word := fits.word
    unfold stateBound at *
    linarith
  have sumHigh : state32 + coefficient * sample < 2 ^ 31 := by
    obtain ⟨stateLow, stateHigh⟩ := carried.within
    have sampleHigh := mul_le_mul_of_nonneg_left bounded.2 range.1
    have word := fits.word
    unfold stateBound at *
    linarith
  have word := fits.word
  rw [isNext] at nextLow nextHigh
  generalize (allPass coefficient).output state32 sample = out at *
  generalize (2 ^ 15 + 2 * coefficient) * inBound = share at *
  generalize stateBound coefficient inBound = bound at *
  generalize coefficient * sample = read at *
  generalize coefficient * out = back at *
  refine ⟨⟨?_, ?_⟩, ⟨?_, ?_⟩, ?_, ?_⟩ <;> omega

/-- Where the outputs fit the loop gives what the section does, in any arithmetic. -/
theorem allPassLoop_eq
    (arithmetic : Arithmetic)
    (range : 0 ≤ coefficient ∧ coefficient ≤ upperCoefficient)
    (fits : BranchFits coefficient inBound)
    {samples : List Int}
    (carried : Carried coefficient inBound state32)
    (bounded : ∀ sample ∈ samples, Within inBound sample) :
    allPassLoop arithmetic coefficient state32 samples =
      some
        ((allPass coefficient).outputs state32 samples,
          (allPass coefficient).final state32 samples) := by
  induction samples generalizing state32 with
  | nil =>
      rfl
  | cons sample rest inductionHypothesis =>
      rw [List.forall_mem_cons] at bounded
      obtain ⟨sum, out, difference⟩ :=
        allPass_words range fits carried bounded.1
      have next := (allPass_step range carried bounded.1).1
      have later := inductionHypothesis (.inr next) bounded.2
      have isOut :
          (state32 + coefficient * sample) >>> (16 : Nat) =
            (allPass coefficient).output state32 sample := by
        rw [Int.shiftRight_eq_div_pow]
        rfl
      rw [allPassLoop, arithmetic.keeps32 _ (by omega) (by omega), Option.bind_eq_bind,
        Option.bind_some, isOut, arithmetic.keeps16 _ (by omega) (by omega),
        Option.bind_some, arithmetic.keeps32 _ (by omega) (by omega), Option.bind_some,
        arithmetic.keeps32 _ (by omega) (by omega), Option.bind_some]
      exact congrArg (Option.bind · _) later

/-- The outputs of a section are within its share, and its state is within its bound. -/
theorem allPass_outputs
    (range : 0 ≤ coefficient ∧ coefficient ≤ upperCoefficient)
    {samples : List Int}
    (carried : Carried coefficient inBound state32)
    (bounded : ∀ sample ∈ samples, Within inBound sample) :
    (∀ out ∈ (allPass coefficient).outputs state32 samples,
        Within ((2 ^ 15 + 2 * coefficient) * inBound + 6 * 2 ^ 16) (out * 2 ^ 16)) ∧
      Carried coefficient inBound ((allPass coefficient).final state32 samples) :=
  @Transducer.kept _ _ _ (allPass coefficient) (Carried coefficient inBound)
    (Within inBound)
    (fun out => Within ((2 ^ 15 + 2 * coefficient) * inBound + 6 * 2 ^ 16) (out * 2 ^ 16))
    (fun carried bounded => (allPass_step range carried bounded).symm.imp_right .inr)
    _ _ carried bounded

/-- What is stored of a state keeps its bound. -/
theorem Carried.stored
    (carried : Carried coefficient inBound state32) :
    Stored coefficient inBound (state32 / 2 ^ 16) := by
  rcases carried with ⟨divides, within⟩ | ⟨lower, upper⟩
  · rwa [Stored, Int.ediv_mul_cancel divides]
  · constructor <;> omega

/-- `AllPassFilter` where the outputs fit, in any arithmetic. -/
theorem allPassFilter_eq
    (range : 0 ≤ coefficient ∧ coefficient ≤ upperCoefficient)
    (fits : BranchFits coefficient inBound)
    {filterState : Int}
    {samples : List Int}
    (stored : Stored coefficient inBound filterState)
    (bounded : ∀ sample ∈ samples, Within inBound sample) :
    ∃ dataOut next,
      (∀ arithmetic,
        allPassFilter arithmetic coefficient filterState samples = some (dataOut, next)) ∧
      dataOut.length = samples.length ∧
      (∀ out ∈ dataOut,
        Within ((2 ^ 15 + 2 * coefficient) * inBound + 6 * 2 ^ 16) (out * 2 ^ 16)) ∧
      Stored coefficient inBound next := by
  have carried : Carried coefficient inBound (filterState * 2 ^ 16) :=
    .inl ⟨Int.dvd_mul_left _ _, stored⟩
  obtain ⟨outputs, last⟩ := allPass_outputs range carried bounded
  refine ⟨_, _, fun arithmetic => ?_, Transducer.length_outputs _ _ _, outputs, last.stored⟩
  have word : Within (2 ^ 31 - 1) ((allPass coefficient).final (filterState * 2 ^ 16) samples) := by
    obtain ⟨lower, upper⟩ := last.within
    have small := stateBound_lt range fits
    constructor <;> omega
  rw [allPassFilter, allPassLoop_eq arithmetic range fits carried bounded,
    Option.bind_eq_bind, Option.bind_some]
  dsimp only
  rw [Int.shiftRight_eq_div_pow, arithmetic.keeps16 _ (by omega) (by omega)]
  rfl

end AllPass

/-! ## A split -/

/-- The largest samples for which the outputs of the upper branch fit 16 bits. -/
def upperLimit : Int :=
  28738

/-- All samples of 16 bits: the outputs of the lower branch fit for them. -/
def lowerLimit : Int :=
  2 ^ 15

/-- The largest samples for which the sum of both branches fits 16 bits. -/
def splitLimit : Int :=
  18096

/-- Both stored states are within their bounds. -/
structure SplitState.Sound (state : SplitState) (inBound : Int) : Prop where
  upper : Stored upperCoefficient inBound state.upper
  lower : Stored lowerCoefficient inBound state.lower

theorem stored_zero
    {coefficient inBound : Int}
    (coefficientNonneg : 0 ≤ coefficient)
    (nonneg : 0 ≤ inBound) :
    Stored coefficient inBound 0 := by
  have product : 0 ≤ (2 ^ 15 + coefficient) * inBound := mul_nonneg (by omega) nonneg
  unfold Stored stateBound
  constructor <;> omega

/-- The states after `memset` are within every bound. -/
theorem SplitState.sound_zero
    {inBound : Int}
    (nonneg : 0 ≤ inBound) :
    SplitState.Sound ⟨0, 0⟩ inBound :=
  ⟨stored_zero (by decide) nonneg, stored_zero (by decide) nonneg⟩

/-- What a split gives of samples within a bound. -/
def Splits (output : SplitOutput) (inBound outBound : Int) : Prop :=
  (∀ sample ∈ output.hpData, Within outBound sample) ∧
    (∀ sample ∈ output.lpData, Within outBound sample) ∧
    output.state.Sound inBound

/-- `SplitFilter` within the limit, in any arithmetic. -/
theorem splitFilter_eq
    {inBound outBound : Int}
    (limited : 0 ≤ inBound ∧ inBound ≤ splitLimit)
    (gain : 118622 * inBound + 12 * 2 ^ 16 ≤ 2 ^ 16 * outBound)
    (word : outBound < 2 ^ 15)
    {state : SplitState}
    (sound : state.Sound inBound)
    {dataIn : List Int}
    (bounded : ∀ sample ∈ dataIn, Within inBound sample) :
    ∃ output,
      (∀ arithmetic, splitFilter arithmetic dataIn state = some output) ∧
        Splits output inBound outBound := by
  unfold splitLimit at limited
  have upperFits : BranchFits upperCoefficient inBound :=
    ⟨limited.1, by unfold upperCoefficient; omega⟩
  have lowerFits : BranchFits lowerCoefficient inBound :=
    ⟨limited.1, by unfold lowerCoefficient; omega⟩
  obtain ⟨upper, upperState, upperRuns, -, upperBounds, upperSound⟩ :=
    allPassFilter_eq (by decide) upperFits sound.upper
      fun sample member => bounded sample (mem_of_mem_evens member)
  obtain ⟨lower, lowerState, lowerRuns, -, lowerBounds, lowerSound⟩ :=
    allPassFilter_eq (by decide) lowerFits sound.lower
      fun sample member => bounded sample (mem_of_mem_odds member)
  have both :
      ∀ pair ∈ upper.zip lower,
        Within outBound (pair.1 - pair.2) ∧ Within outBound (pair.2 + pair.1) := by
    intro pair member
    obtain ⟨inUpper, inLower⟩ := List.of_mem_zip member
    obtain ⟨upperLow, upperHigh⟩ := upperBounds pair.1 inUpper
    obtain ⟨lowerLow, lowerHigh⟩ := lowerBounds pair.2 inLower
    unfold upperCoefficient at upperLow upperHigh
    unfold lowerCoefficient at lowerLow lowerHigh
    refine ⟨⟨?_, ?_⟩, ?_, ?_⟩ <;> omega
  refine
    ⟨⟨(upper.zip lower).map fun pair => pair.1 - pair.2,
        (upper.zip lower).map fun pair => pair.2 + pair.1, ⟨upperState, lowerState⟩⟩,
      fun arithmetic => ?_, ?_, ?_, upperSound, lowerSound⟩
  · have hp :
        ((upper.zip lower).mapM fun pair => arithmetic.word16 (pair.1 - pair.2)) =
          some ((upper.zip lower).map fun pair => pair.1 - pair.2) :=
      mapM_of_forall fun pair member => by
        obtain ⟨⟨low, high⟩, -⟩ := both pair member
        exact arithmetic.keeps16 _ (by omega) (by omega)
    have lp :
        ((upper.zip lower).mapM fun pair => arithmetic.word16 (pair.2 + pair.1)) =
          some ((upper.zip lower).map fun pair => pair.2 + pair.1) :=
      mapM_of_forall fun pair member => by
        obtain ⟨-, low, high⟩ := both pair member
        exact arithmetic.keeps16 _ (by omega) (by omega)
    simp only [splitFilter, upperRuns, lowerRuns, Option.bind_eq_bind, Option.bind_some, hp, lp]
    rfl
  · intro sample member
    obtain ⟨pair, inPairs, rfl⟩ := List.mem_map.mp member
    exact (both pair inPairs).1
  · intro sample member
    obtain ⟨pair, inPairs, rfl⟩ := List.mem_map.mp member
    exact (both pair inPairs).2

/-! ## The high-pass filter -/

/-- The largest samples for which the outputs fit 16 bits. -/
def highPassLimit : Int :=
  19056

/-- The last output comes from samples and outputs within the bounds, and the others that the
state holds are within them. -/
structure HpState.Sound (state : HpState) (inBound outBound : Int) : Prop where
  input0 : Within inBound state.state0
  input1 : Within inBound state.state1
  output0 : Within outBound state.state2
  output1 : Within outBound state.state3
  computed :
    ∃ earlier cut,
      Within inBound earlier ∧
        ∃ earlierOut,
          Within outBound earlierOut ∧
            (0 ≤ cut ∧ cut < 2 ^ 14) ∧
            state.state2 * 2 ^ 14 =
              6631 * state.state0 - 13262 * state.state1 + 6631 * earlier +
                7756 * state.state3 - 5620 * earlierOut - cut

/-- The bound of the outputs for a bound of the samples, from two steps of the recursion. -/
structure HighPassBounds (inBound outBound : Int) : Prop where
  limited : 0 ≤ inBound ∧ inBound ≤ highPassLimit
  word : 0 ≤ outBound ∧ outBound < 2 ^ 15
  gain : 331709412 * inBound + 395485620 ≤ 192924192 * outBound

/-- The output for a sample without any wrap. -/
def HpState.output (state : HpState) (sample : Int) : Int :=
  (6631 * sample + -13262 * state.state0 + 6631 * state.state1 - -7756 * state.state2 -
    5620 * state.state3) / 2 ^ 14

theorem highPass_step
    {inBound outBound sample : Int}
    (bounds : HighPassBounds inBound outBound)
    {state : HpState}
    (sound : state.Sound inBound outBound)
    (bounded : Within inBound sample) :
    Within outBound (state.output sample) ∧
      HpState.Sound ⟨sample, state.state0, state.output sample, state.state2⟩ inBound
        outBound := by
  obtain ⟨input0, input1, output0, output1, earlier, cut, inEarlier, earlierOut,
    inEarlierOut, cutRange, computed⟩ := sound
  obtain ⟨limited, word, gain⟩ := bounds
  have isCut :
      ∃ rest, (0 ≤ rest ∧ rest < 2 ^ 14) ∧
        state.output sample * 2 ^ 14 =
          6631 * sample - 13262 * state.state0 + 6631 * state.state1 +
            7756 * state.state2 - 5620 * state.state3 - rest := by
    refine ⟨(6631 * sample + -13262 * state.state0 + 6631 * state.state1 -
      -7756 * state.state2 - 5620 * state.state3) % 2 ^ 14, ?_, ?_⟩
    · omega
    · unfold HpState.output
      omega
  obtain ⟨rest, restRange, isOut⟩ := isCut
  generalize state.output sample = value at *
  have within : Within outBound value := by
    constructor <;> linarith [bounded.1, bounded.2, input0.1, input0.2, input1.1, input1.2,
      output1.1, output1.2, inEarlier.1, inEarlier.2, inEarlierOut.1, inEarlierOut.2]
  exact
    ⟨within, bounded, input0, within, output0, state.state1, rest, input1, state.state3,
      output1, restRange, isOut⟩

theorem HpState.sound_zero
    {inBound outBound : Int}
    (inNonneg : 0 ≤ inBound)
    (outNonneg : 0 ≤ outBound) :
    HpState.Sound ⟨0, 0, 0, 0⟩ inBound outBound := by
  have zeroIn : Within inBound 0 := by constructor <;> omega
  have zeroOut : Within outBound 0 := by constructor <;> omega
  exact
    ⟨zeroIn, zeroIn, zeroOut, zeroOut, 0, 0, zeroIn, 0, zeroOut, ⟨by decide, by decide⟩,
      by decide⟩

/-- `HighPassFilter` within the limit, in any arithmetic. -/
theorem highPassFilter_eq
    {inBound outBound : Int}
    (bounds : HighPassBounds inBound outBound)
    {state : HpState}
    (sound : state.Sound inBound outBound)
    {dataIn : List Int}
    (bounded : ∀ sample ∈ dataIn, Within inBound sample) :
    ∃ result,
      (∀ arithmetic, highPassFilter arithmetic dataIn state = some result) ∧
        result.2.Sound inBound outBound := by
  induction dataIn generalizing state with
  | nil =>
      exact ⟨([], state), fun _ => rfl, sound⟩
  | cons sample rest inductionHypothesis =>
      rw [List.forall_mem_cons] at bounded
      obtain ⟨within, next⟩ := highPass_step bounds sound bounded.1
      obtain ⟨⟨dataOut, last⟩, runs, lastSound⟩ := inductionHypothesis next bounded.2
      refine ⟨(state.output sample :: dataOut, last), fun arithmetic => ?_, lastSound⟩
      obtain ⟨limited, word, -⟩ := bounds
      unfold highPassLimit at limited
      obtain ⟨low, high⟩ := bounded.1
      obtain ⟨low0, high0⟩ := sound.input0
      obtain ⟨low1, high1⟩ := sound.input1
      obtain ⟨low2, high2⟩ := sound.output0
      obtain ⟨low3, high3⟩ := sound.output1
      obtain ⟨outLow, outHigh⟩ := within
      have isOut :
          (6631 * sample + -13262 * state.state0 + 6631 * state.state1 -
              -7756 * state.state2 - 5620 * state.state3) >>> (14 : Nat) =
            state.output sample := by
        rw [Int.shiftRight_eq_div_pow]
        rfl
      rw [highPassFilter, arithmetic.keeps32 _ (by omega) (by omega), Option.bind_eq_bind,
        Option.bind_some, arithmetic.keeps32 _ (by omega) (by omega), Option.bind_some,
        arithmetic.keeps32 _ (by omega) (by omega), Option.bind_some,
        arithmetic.keeps32 _ (by omega) (by omega), Option.bind_some,
        arithmetic.keeps32 _ (by omega) (by omega), Option.bind_some,
        isOut, arithmetic.keeps16 _ (by omega) (by omega), Option.bind_some]
      exact congrArg (Option.bind · _) (runs arithmetic)

end ApmSdk.Vad
