import ApmSdk.CIntegers
import ApmSdk.CheckedComputation
import ApmSdk.Transducer
import Mathlib.Data.List.Induction
import Mathlib.Tactic.Linarith
import Mathlib.Tactic.Ring

namespace ApmSdk.Qmf

/-!
# The splitting filter

A quadrature mirror filter splits a stream into two bands of half its rate, and joins them
again.  Either way two branches pass three all-pass sections each, in words of 32 bits in
Q10.  What the all-pass filter computes in 32 bits is checked here, so that a call that
wraps or saturates does not return.
-/

/-- A section of an all-pass filter: its last input and its last output. -/
structure Section where
  input : Int
  output : Int
deriving Repr, DecidableEq

/-- `filter_state` -/
structure FilterState where
  first : Section
  second : Section
  third : Section
deriving Repr, DecidableEq

/-- The state of a filter that has read nothing. -/
def FilterState.zero : FilterState :=
  ⟨⟨0, 0⟩, ⟨0, 0⟩, ⟨0, 0⟩⟩

/-- `filter_coefficients`, in Q16. -/
structure Coefficients where
  first : Int
  second : Int
  third : Int

/-- `WebRtcSpl_kAllPassFilter1` -/
def kAllPassFilter1 : Coefficients :=
  ⟨6418, 36982, 57261⟩

/-- `WebRtcSpl_kAllPassFilter2` -/
def kAllPassFilter2 : Coefficients :=
  ⟨21333, 49062, 63010⟩

/-- `kMaxBandFrameLength` -/
abbrev kMaxBandFrameLength : Nat := 320

/-- `WebRtcSpl_SubSatW32` -/
def subSatW32 (var1 var2 : Int) : Int :=
  let diff := int32 (var1 - var2)
  if var1 < 0 then
    if 0 < var2 ∧ 0 < diff then -2 ^ 31 else diff
  else if var2 < 0 ∧ diff < 0 then 2 ^ 31 - 1
  else diff

/-- A difference that must not saturate. -/
def exactSubSatW32 (var1 var2 : Int) : Option Int :=
  if subSatW32 var1 var2 = var1 - var2 then some (subSatW32 var1 var2)
  else none

/-- `WEBRTC_SPL_SCALEDIFF32`, none of whose operations must wrap. -/
def scaleDiff32 (a b c : Int) : Option Int := do
  let high ← checked int32 ((b >>> (16 : Nat)) * a)
  let sum ← checked int32 (c + high)
  let low ← checked uint32 (b % 2 ^ 16 * a)
  checked int32 (sum + low >>> (16 : Nat))

/-- One cascade of `WebRtcSpl_AllPassQMF`. -/
def cascade (coefficient : Int) : Section → List Int → Option (List Int)
  | _, [] => some []
  | last, sample :: rest => do
      let diff ← exactSubSatW32 sample last.output
      let out ← scaleDiff32 coefficient diff last.input
      let outs ← cascade coefficient ⟨sample, out⟩ rest
      return out :: outs

/-- `WebRtcSpl_AllPassQMF`; an empty block has no last sample to keep. -/
def allPassQMF
    (inData : List Int)
    (filterCoefficients : Coefficients)
    (filterState : FilterState) : Option (List Int × FilterState) := do
  let outData ← cascade filterCoefficients.first filterState.first inData
  let first : Section := ⟨← inData.getLast?, ← outData.getLast?⟩
  let inData ← cascade filterCoefficients.second filterState.second outData
  let second : Section := ⟨← outData.getLast?, ← inData.getLast?⟩
  let outData ← cascade filterCoefficients.third filterState.third inData
  let third : Section := ⟨← inData.getLast?, ← outData.getLast?⟩
  return (outData, ⟨first, second, third⟩)

theorem subSatW32_of_bounds
    {var1 var2 : Int}
    (lower : -2 ^ 31 ≤ var1 - var2)
    (upper : var1 - var2 < 2 ^ 31) :
    subSatW32 var1 var2 = var1 - var2 := by
  unfold subSatW32
  dsimp only
  rw [int32_of_bounds (by omega) upper]
  split_ifs <;> omega

/-- Where the result leaves room for the lower half of the product, nothing wraps. -/
theorem scaleDiff32_of_bounds
    {a b c : Int}
    (coefficient : 0 ≤ a ∧ a < 2 ^ 16)
    (word : -2 ^ 31 ≤ b ∧ b < 2 ^ 31)
    (lower : -2 ^ 31 + 2 ^ 16 ≤ c + a * b / 2 ^ 16)
    (upper : c + a * b / 2 ^ 16 < 2 ^ 31) :
    scaleDiff32 a b c = some (c + a * b / 2 ^ 16) := by
  obtain ⟨nonneg, small⟩ := coefficient
  have halves :
      a * b / 2 ^ 16 = b / 2 ^ 16 * a + b % 2 ^ 16 * a / 2 ^ 16 := by
    have whole : a * b = b % 2 ^ 16 * a + 2 ^ 16 * (b / 2 ^ 16 * a) := by
      have parts := Int.emod_add_mul_ediv b (2 ^ 16)
      calc
        a * b = (b % 2 ^ 16 + 2 ^ 16 * (b / 2 ^ 16)) * a := by
          rw [parts, mul_comm]
        _ = b % 2 ^ 16 * a + 2 ^ 16 * (b / 2 ^ 16 * a) := by
          ring
    rw [whole, Int.add_mul_ediv_left _ _ (by decide), add_comm]
  have lowRange : 0 ≤ b % 2 ^ 16 * a :=
    mul_nonneg (Int.emod_nonneg _ (by decide)) nonneg
  have lowSmall : b % 2 ^ 16 * a ≤ 2 ^ 16 * (2 ^ 16 - 1) :=
    mul_le_mul (by omega) (by omega) nonneg (by decide)
  have highLow : -2 ^ 15 * a ≤ b / 2 ^ 16 * a :=
    mul_le_mul_of_nonneg_right (by omega) nonneg
  have highHigh : b / 2 ^ 16 * a ≤ (2 ^ 15 - 1) * a :=
    mul_le_mul_of_nonneg_right (by omega) nonneg
  unfold scaleDiff32
  rw [halves] at lower upper ⊢
  simp only [Int.shiftRight_eq_div_pow, Nat.cast_pow, Nat.cast_ofNat]
  generalize b % 2 ^ 16 * a = low at *
  generalize b / 2 ^ 16 * a = high at *
  have checkedHigh : checked int32 high = some high :=
    if_pos (int32_of_bounds (by omega) (by omega))
  have checkedSum : checked int32 (c + high) = some (c + high) :=
    if_pos (int32_of_bounds (by omega) (by omega))
  have checkedLow : checked uint32 low = some low :=
    if_pos (Int.emod_eq_of_lt lowRange (by omega))
  have checkedAll :
      checked int32 (c + high + low / 2 ^ 16) =
        some (c + high + low / 2 ^ 16) :=
    if_pos (int32_of_bounds (by omega) (by omega))
  rw [checkedHigh, Option.bind_eq_bind, Option.bind_some, checkedSum,
    Option.bind_some, checkedLow, Option.bind_some, checkedAll, add_assoc]

/-! ## The exact sections -/

/-- A section over integers of any size. -/
def allPass (coefficient : Int) : Transducer Section Int Int where
  output last sample :=
    last.input + coefficient * (sample - last.output) / 2 ^ 16
  next last sample :=
    ⟨sample, last.input + coefficient * (sample - last.output) / 2 ^ 16⟩

/-- Three sections, one after the other. -/
def allPassChain
    (coefficients : Coefficients) :
    Transducer (Section × Section × Section) Int Int :=
  (allPass coefficients.first).chain
    ((allPass coefficients.second).chain (allPass coefficients.third))

/-- The state of three sections as the code keeps it. -/
def FilterState.sections (state : FilterState) : Section × Section × Section :=
  (state.first, state.second, state.third)

/-- The samples that a section reads and gives, and how far its state may be from what
these allow: the feedback repeats a rounding error. -/
structure Gain where
  coefficient : Int
  inBound : Int
  outBound : Int
  slack : Int
  coefficientRange : 0 ≤ coefficient ∧ coefficient < 2 ^ 16
  inRange : 0 ≤ inBound
  slackFits : coefficient * (slack + 2 ^ 16) ≤ 2 ^ 16 * slack
  outFits :
    (2 ^ 16 + 2 * coefficient) * inBound + slack + 2 ^ 16 ≤ 2 ^ 16 * outBound
  word : inBound + outBound + 2 ^ 16 ≤ 2 ^ 31

/-- What a section may hold: the two words, and the part of the next output that does not
depend on the next input. -/
structure Gain.Sound (gain : Gain) (last : Section) : Prop where
  input : |last.input| ≤ gain.inBound
  output : |last.output| ≤ gain.outBound
  carried :
    |2 ^ 16 * last.input - gain.coefficient * last.output| ≤
      (2 ^ 16 + gain.coefficient) * gain.inBound + gain.slack

namespace Gain

variable {gain : Gain} {last : Section} {sample : Int}

theorem slack_nonneg (gain : Gain) : 0 ≤ gain.slack := by
  obtain ⟨lower, upper⟩ := gain.coefficientRange
  have fits := gain.slackFits
  by_contra negative
  have more :
      gain.coefficient * gain.slack ≥ (2 ^ 16 - 1) * gain.slack :=
    mul_le_mul_of_nonpos_right (by omega) (by omega)
  linarith

theorem Sound.zero (gain : Gain) : gain.Sound ⟨0, 0⟩ := by
  have slack := gain.slack_nonneg
  have inRange := gain.inRange
  have coefficient := gain.coefficientRange
  have outFits := gain.outFits
  have product : 0 ≤ gain.coefficient * gain.inBound :=
    mul_nonneg coefficient.1 inRange
  refine ⟨by simpa using inRange, ?_, ?_⟩
  · rw [abs_zero]
    linarith
  · rw [mul_zero, mul_zero, sub_zero, abs_zero]
    linarith

/-- The output is short of the exact one by less than a unit. -/
theorem output_mul (gain : Gain) (last : Section) (sample : Int) :
    let exact :=
      2 ^ 16 * last.input - gain.coefficient * last.output +
        gain.coefficient * sample
    let out := (allPass gain.coefficient).output last sample
    2 ^ 16 * out ≤ exact ∧ exact < 2 ^ 16 * out + 2 ^ 16 := by
  intro exact out
  have product :
      gain.coefficient * (sample - last.output) =
        gain.coefficient * sample - gain.coefficient * last.output := by
    ring
  have isOut :
      out =
        last.input +
          (gain.coefficient * sample - gain.coefficient * last.output) /
            2 ^ 16 := by
    rw [← product]
    rfl
  dsimp only [exact]
  omega

/-- A section stays within its bounds: the share of its state that is fed back is no more
than the input makes up for. -/
theorem Sound.next
    (sound : gain.Sound last)
    (bounded : |sample| ≤ gain.inBound) :
    |(allPass gain.coefficient).output last sample| ≤ gain.outBound ∧
      gain.Sound ((allPass gain.coefficient).next last sample) := by
  obtain ⟨below, above⟩ := gain.output_mul last sample
  obtain ⟨coefficientLow, coefficientHigh⟩ := gain.coefficientRange
  obtain ⟨carriedLow, carriedHigh⟩ := abs_le.mp sound.carried
  obtain ⟨sampleLow, sampleHigh⟩ := abs_le.mp bounded
  have slackFits := gain.slackFits
  have outFits := gain.outFits
  have isNext :
      (allPass gain.coefficient).next last sample =
        ⟨sample, (allPass gain.coefficient).output last sample⟩ :=
    rfl
  rw [isNext]
  generalize (allPass gain.coefficient).output last sample = out at *
  generalize
    2 ^ 16 * last.input - gain.coefficient * last.output = carried at *
  have square : 0 ≤ 2 ^ 32 - gain.coefficient * gain.coefficient := by
    have small :
        gain.coefficient * gain.coefficient ≤ 2 ^ 16 * 2 ^ 16 :=
      mul_le_mul coefficientHigh.le coefficientHigh.le coefficientLow
        (by decide)
    omega
  have readLow := mul_le_mul_of_nonneg_left sampleLow coefficientLow
  have readHigh := mul_le_mul_of_nonneg_left sampleHigh coefficientLow
  have restLow := mul_le_mul_of_nonneg_left sampleLow square
  have restHigh := mul_le_mul_of_nonneg_left sampleHigh square
  have backLow := mul_le_mul_of_nonneg_left carriedLow coefficientLow
  have backHigh := mul_le_mul_of_nonneg_left carriedHigh coefficientLow
  have outLow := mul_le_mul_of_nonneg_left below coefficientLow
  have outHigh := mul_le_mul_of_nonneg_left above.le coefficientLow
  have given : |out| ≤ gain.outBound := by
    rw [abs_le]
    constructor <;> linarith
  refine ⟨given, bounded, given, ?_⟩
  dsimp only
  rw [abs_le]
  constructor <;> linarith

/-- Within its bounds no operation of a section wraps or saturates. -/
theorem Sound.returns
    (sound : gain.Sound last)
    (bounded : |sample| ≤ gain.inBound) :
    exactSubSatW32 sample last.output = some (sample - last.output) ∧
      scaleDiff32 gain.coefficient (sample - last.output) last.input =
        some ((allPass gain.coefficient).output last sample) := by
  obtain ⟨outputLow, outputHigh⟩ := abs_le.mp sound.output
  obtain ⟨sampleLow, sampleHigh⟩ := abs_le.mp bounded
  obtain ⟨givenLow, givenHigh⟩ := abs_le.mp (sound.next bounded).1
  have word := gain.word
  have isDiff :
      subSatW32 sample last.output = sample - last.output :=
    subSatW32_of_bounds (by omega) (by omega)
  refine ⟨?_, ?_⟩
  · rw [exactSubSatW32, isDiff, if_pos rfl]
  · have isOut :
        (allPass gain.coefficient).output last sample =
          last.input +
            gain.coefficient * (sample - last.output) / 2 ^ 16 :=
      rfl
    rw [isOut] at givenLow givenHigh ⊢
    exact
      scaleDiff32_of_bounds gain.coefficientRange
        ⟨by omega, by omega⟩ (by omega) (by omega)

end Gain

/-- A cascade over samples within the bounds is the exact section. -/
theorem Gain.Sound.cascade
    {gain : Gain}
    {last : Section}
    (sound : gain.Sound last)
    {samples : List Int}
    (bounded : ∀ sample ∈ samples, |sample| ≤ gain.inBound) :
    cascade gain.coefficient last samples =
      some ((allPass gain.coefficient).outputs last samples) := by
  induction samples generalizing last with
  | nil =>
      rfl
  | cons sample rest inductionHypothesis =>
      rw [List.forall_mem_cons] at bounded
      obtain ⟨isDiff, isOut⟩ := sound.returns bounded.1
      have rest := inductionHypothesis (sound.next bounded.1).2 bounded.2
      rw [Qmf.cascade, isDiff, Option.bind_eq_bind, Option.bind_some, isOut,
        Option.bind_some]
      have isNext :
          (allPass gain.coefficient).next last sample =
            ⟨sample, (allPass gain.coefficient).output last sample⟩ :=
        rfl
      rw [← isNext, rest]
      rfl

/-- What a section gives for a block, and holds behind it, is within its bounds. -/
theorem Gain.Sound.outputs
    {gain : Gain}
    {last : Section}
    (sound : gain.Sound last)
    {samples : List Int}
    (bounded : ∀ sample ∈ samples, |sample| ≤ gain.inBound) :
    (∀ out ∈ (allPass gain.coefficient).outputs last samples,
        |out| ≤ gain.outBound) ∧
      gain.Sound ((allPass gain.coefficient).final last samples) :=
  (allPass gain.coefficient).kept (fun sound accepted => sound.next accepted)
    sound bounded

/-- The state that is saved behind a block is the one of the section. -/
theorem final_allPass
    (coefficient : Int)
    (last : Section)
    {samples : List Int}
    (present : samples ≠ []) :
    ∃ input output,
      samples.getLast? = some input ∧
        ((allPass coefficient).outputs last samples).getLast? =
            some output ∧
          (allPass coefficient).final last samples = ⟨input, output⟩ := by
  induction samples using List.reverseRecOn with
  | nil =>
      contradiction
  | append_singleton samples sample _ =>
      rw [Transducer.outputs_append, Transducer.final_append]
      refine ⟨sample, _, by simp, ?_, rfl⟩
      simp [Transducer.outputs]
      rfl

theorem outputs_ne_nil
    (coefficient : Int)
    (last : Section)
    {samples : List Int}
    (present : samples ≠ []) :
    (allPass coefficient).outputs last samples ≠ [] := by
  rw [← List.length_pos_iff, Transducer.length_outputs]
  exact List.length_pos_iff.mpr present

/-! ## Three sections -/

/-- The bounds of three sections, each of which reads what the one before it gives. -/
structure GainChain (coefficients : Coefficients) where
  first : Gain
  second : Gain
  third : Gain
  isFirst : first.coefficient = coefficients.first
  isSecond : second.coefficient = coefficients.second
  isThird : third.coefficient = coefficients.third
  toSecond : first.outBound = second.inBound
  toThird : second.outBound = third.inBound

/-- The bounds of the first filter, for a sum of two samples in Q10. -/
def filter1Gains : GainChain kAllPassFilter1 where
  first := ⟨6418, 2 ^ 26, 80252930, 7115, by decide, by decide, by decide,
    by decide, by decide⟩
  second := ⟨36982, 80252930, 170826476, 84880, by decide, by decide,
    by decide, by decide, by decide⟩
  third := ⟨57261, 170826476, 469340121, 453494, by decide, by decide,
    by decide, by decide, by decide⟩
  isFirst := rfl
  isSecond := rfl
  isThird := rfl
  toSecond := rfl
  toThird := rfl

/-- The bounds of the second filter. -/
def filter2Gains : GainChain kAllPassFilter2 where
  first := ⟨21333, 2 ^ 26, 110798850, 31629, by decide, by decide, by decide,
    by decide, by decide⟩
  second := ⟨49062, 110798850, 276692811, 195176, by decide, by decide,
    by decide, by decide, by decide⟩
  third := ⟨63010, 276692811, 808748929, 1634768, by decide, by decide,
    by decide, by decide, by decide⟩
  isFirst := rfl
  isSecond := rfl
  isThird := rfl
  toSecond := rfl
  toThird := rfl

namespace GainChain

variable {coefficients : Coefficients} {gains : GainChain coefficients}

/-- Each section is within its bounds. -/
structure Sound
    (gains : GainChain coefficients)
    (state : FilterState) : Prop where
  first : gains.first.Sound state.first
  second : gains.second.Sound state.second
  third : gains.third.Sound state.third

theorem Sound.zero (gains : GainChain coefficients) :
    gains.Sound .zero where
  first := .zero _
  second := .zero _
  third := .zero _

/-- Three sections pass a block on within their bounds. -/
theorem Sound.passes
    {state : FilterState}
    (sound : gains.Sound state)
    {samples : List Int}
    (bounded : ∀ sample ∈ samples, |sample| ≤ gains.first.inBound) :
    let firstOut :=
      (allPass coefficients.first).outputs state.first samples
    let secondOut :=
      (allPass coefficients.second).outputs state.second firstOut
    (∀ sample ∈ firstOut, |sample| ≤ gains.second.inBound) ∧
      (∀ sample ∈ secondOut, |sample| ≤ gains.third.inBound) ∧
      (∀ sample ∈ (allPass coefficients.third).outputs state.third secondOut,
        |sample| ≤ gains.third.outBound) ∧
      gains.Sound
        ⟨(allPass coefficients.first).final state.first samples,
          (allPass coefficients.second).final state.second firstOut,
          (allPass coefficients.third).final state.third secondOut⟩ := by
  intro firstOut secondOut
  obtain ⟨firstGives, firstSound⟩ := sound.first.outputs bounded
  rw [gains.isFirst, gains.toSecond] at firstGives
  obtain ⟨secondGives, secondSound⟩ := sound.second.outputs firstGives
  rw [gains.isSecond, gains.toThird] at secondGives
  obtain ⟨thirdGives, thirdSound⟩ := sound.third.outputs secondGives
  rw [gains.isFirst] at firstSound
  rw [gains.isSecond] at secondSound
  rw [gains.isThird] at thirdGives thirdSound
  exact ⟨firstGives, secondGives, thirdGives,
    ⟨firstSound, secondSound, thirdSound⟩⟩

/-- The filter over a block within the bounds is the chain of its sections. -/
theorem Sound.allPassQMF
    {state : FilterState}
    (sound : gains.Sound state)
    {samples : List Int}
    (present : samples ≠ [])
    (bounded : ∀ sample ∈ samples, |sample| ≤ gains.first.inBound) :
    ∃ next,
      allPassQMF samples coefficients state =
          some
            ((allPassChain coefficients).outputs state.sections samples,
              next) ∧
        next.sections =
            (allPassChain coefficients).final state.sections samples ∧
          gains.Sound next ∧
          ∀ sample ∈
              (allPassChain coefficients).outputs state.sections samples,
            |sample| ≤ gains.third.outBound := by
  obtain ⟨firstBounded, secondBounded, thirdBounded, nextSound⟩ :=
    sound.passes bounded
  have firstRun := sound.first.cascade bounded
  rw [gains.isFirst] at firstRun
  have secondRun := sound.second.cascade firstBounded
  rw [gains.isSecond] at secondRun
  have thirdRun := sound.third.cascade secondBounded
  rw [gains.isThird] at thirdRun
  have isChain :
      (allPassChain coefficients).outputs state.sections samples =
        (allPass coefficients.third).outputs state.third
          ((allPass coefficients.second).outputs state.second
            ((allPass coefficients.first).outputs state.first samples)) := by
    rw [allPassChain, FilterState.sections, Transducer.outputs_chain,
      Transducer.outputs_chain]
  have firstPresent := outputs_ne_nil coefficients.first state.first present
  have secondPresent :=
    outputs_ne_nil coefficients.second state.second firstPresent
  obtain ⟨input, firstOut, isInput, isFirstOut, firstFinal⟩ :=
    final_allPass coefficients.first state.first present
  obtain ⟨_, secondOut, isFirstOut', isSecondOut, secondFinal⟩ :=
    final_allPass coefficients.second state.second firstPresent
  obtain ⟨_, thirdOut, isSecondOut', isThirdOut, thirdFinal⟩ :=
    final_allPass coefficients.third state.third secondPresent
  obtain rfl := Option.some.inj (isFirstOut.symm.trans isFirstOut')
  obtain rfl := Option.some.inj (isSecondOut.symm.trans isSecondOut')
  rw [firstFinal, secondFinal, thirdFinal] at nextSound
  refine ⟨_, ?_, ?_, nextSound, ?_⟩
  · simp only [Qmf.allPassQMF, firstRun, secondRun, thirdRun, isInput,
      isFirstOut, isSecondOut, isThirdOut, isChain, Option.bind_eq_bind,
      Option.bind_some]
    rfl
  · have isFinal :
        (allPassChain coefficients).final state.sections samples =
          (⟨input, firstOut⟩, ⟨firstOut, secondOut⟩,
            ⟨secondOut, thirdOut⟩) := by
      rw [allPassChain, FilterState.sections, Transducer.final_chain,
        Transducer.final_chain, firstFinal, secondFinal, thirdFinal]
    rw [isFinal]
    rfl
  · rw [isChain]
    exact thirdBounded

end GainChain

end ApmSdk.Qmf
