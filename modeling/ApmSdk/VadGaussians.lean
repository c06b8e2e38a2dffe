import ApmSdk.VadModels

namespace ApmSdk.Vad

/-!
# What the Gaussians of the voice detector give

For features, means and deviations in the ranges that they keep, nothing is lost when a
probability is calculated.  Where it is not zero the feature is close to the mean, and `delta`
is small.
-/

/-! ## Narrowings that agree on what fits -/

/-- A narrowing that keeps what fits, and does as the code at the two places told apart. -/
structure Narrowing.Admitted (narrow : Narrowing) : Prop where
  keeps :
    ∀ value, -2 ^ 15 ≤ value → value < 2 ^ 15 → narrow .other value = some value
  wraps :
    ∀ place ≠ .other, ∀ value, narrow place value = some (int16 value)

theorem admitted_narrowing : narrowing.Admitted where
  keeps _ lower upper := congrArg some (int16_of_bounds lower upper)
  wraps _ _ _ := rfl

theorem admitted_losslessElsewhere : losslessElsewhere.Admitted where
  keeps _ lower upper := if_pos (int16_of_bounds lower upper)
  wraps place differs value := by
    cases place with
    | unlikelyDelt => rfl
    | divisor => rfl
    | other => exact absurd rfl differs

/-- The admitted narrowings agree on a computation. -/
abbrev Agrees
    {Value : Type}
    (computation : Narrowing → Option Value)
    (holds : Value → Prop) : Prop :=
  Agreed Narrowing.Admitted computation holds

namespace Agrees

variable {Value : Type}
variable {value : Int}
variable {rest : Narrowing → Int → Option Value}
variable {holds : Value → Prop}

/-- A value that fits is handed on. -/
theorem kept
    (lower : -2 ^ 15 ≤ value)
    (upper : value < 2 ^ 15)
    (ends : Agrees (fun narrow => rest narrow value) holds) :
    Agrees (fun narrow => narrow .other value >>= rest narrow) holds := by
  have same : Agrees (fun narrow => narrow .other value) (· = value) :=
    ⟨value, fun _ isAdmitted => isAdmitted.keeps value lower upper, rfl⟩
  refine .bind same ?_
  rintro other rfl
  exact ends

/-- A value that fits is returned. -/
theorem returned
    {holds : Int → Prop}
    (lower : -2 ^ 15 ≤ value)
    (upper : value < 2 ^ 15)
    (meets : holds value) :
    Agrees (fun narrow => narrow .other value) holds :=
  ⟨value, fun _ isAdmitted => isAdmitted.keeps value lower upper, meets⟩

/-- At the places told apart a value is handed on as in the code. -/
theorem wrapped
    {place : Place}
    (differs : place ≠ .other)
    (ends : Agrees (fun narrow => rest narrow (int16 value)) holds) :
    Agrees (fun narrow => narrow place value >>= rest narrow) holds := by
  have same : Agrees (fun narrow => narrow place value) (· = int16 value) :=
    ⟨_, fun _ isAdmitted => isAdmitted.wraps place differs value, rfl⟩
  refine .bind same ?_
  rintro other rfl
  exact ends

end Agrees

/-! ## The exponential -/

/-- An exponential in Q10, which is zero from an exponent on. -/
structure IsExponential (exponent value : Int) : Prop where
  range : 0 ≤ value ∧ value ≤ 1024
  small : 0 < value → exponent ≤ 7098

/-- Shifted by more bits than it has a value is zero. -/
theorem ediv_pow_eq_zero
    {value : Int}
    (range : 0 ≤ value ∧ value < 2 ^ 11)
    {shift : Nat}
    (many : 11 ≤ shift) :
    value / 2 ^ shift = 0 := by
  have power : (2 : Int) ^ 11 ≤ 2 ^ shift := pow_le_pow_right₀ (by decide) many
  exact Int.ediv_eq_zero_of_lt range.1 (Int.lt_of_lt_of_le range.2 power)

/-- A power of two below one half shifts a value. -/
theorem isExponential_shifted
    {exponent u : Int}
    (isU : u = 5909 * exponent / 2 ^ 12)
    (range : 0 ≤ u) :
    IsExponential exponent
      ((1024 + -u % 1024) / 2 ^ ((u - 1) / 2 ^ 10 + 1).toNat) := by
  have fraction : 0 ≤ -u % 1024 ∧ -u % 1024 < 1024 :=
    ⟨Int.emod_nonneg _ (by decide), Int.emod_lt_of_pos _ (by decide)⟩
  rcases range.eq_or_lt with zero | positive
  · subst zero
    exact ⟨by decide, fun _ => by omega⟩
  · obtain ⟨shift, isShift⟩ : ∃ shift : Nat, ((u - 1) / 2 ^ 10 + 1).toNat = shift + 1 :=
      ⟨((u - 1) / 2 ^ 10).toNat, by omega⟩
    rw [isShift]
    generalize isValue : 1024 + -u % 1024 = value
    have half : value / 2 ^ (shift + 1) ≤ value / 2 := by
      rw [pow_succ', ← Int.ediv_ediv_of_nonneg (by decide)]
      exact Int.ediv_le_self _ (by omega)
    refine ⟨⟨Int.ediv_nonneg (by omega) (by positivity), by omega⟩, fun isPositive => ?_⟩
    by_contra large
    have zero := @ediv_pow_eq_zero value (by omega) (shift + 1) (by omega)
    omega

theorem expValue_agrees
    {exponent : Int}
    (nonneg : 0 ≤ exponent) :
    Agrees (fun narrow => expValue narrow exponent) (IsExponential exponent) := by
  by_cases small : exponent < kCompVar
  · have fits : int32 (kLog2Exp * exponent) = 5909 * exponent := by
      unfold kCompVar at small
      exact int32_of_bounds (by unfold kLog2Exp; omega) (by unfold kLog2Exp; omega)
    simp only [expValue, if_pos small, fits, Int.shiftRight_eq_div_pow, Nat.cast_pow,
      Nat.cast_ofNat]
    unfold kCompVar at small
    generalize isU : 5909 * exponent / 2 ^ 12 = u
    refine .kept (by omega) (by omega) ?_
    refine .kept (by omega) (by omega) ?_
    rw [Int.neg_neg]
    refine .kept (by omega) (by omega) ?_
    exact .pure (isExponential_shifted isU.symm (by omega))
  · simp only [expValue, if_neg small]
    exact .pure ⟨by decide, fun positive => absurd positive (by decide)⟩

/-! ## The probability -/

/-- How far a feature can be from a mean, in Q7. -/
def farthest : Int :=
  18146

/-- What `delta` is for a distance and `inv_std2`. -/
structure IsDelta (distance delta : Int) : Prop where
  fits : -2 ^ 15 ≤ delta ∧ delta < 2 ^ 15
  sameSign : 0 ≤ delta * distance
  near : delta * distance < 3634688 → -2563 ≤ delta ∧ delta ≤ 2563

theorem isDelta_of_inverse
    {distance inverse : Int}
    (range : 0 ≤ inverse ∧ inverse ≤ 1849)
    (isNear : -farthest ≤ distance ∧ distance ≤ farthest) :
    IsDelta distance (inverse * distance / 2 ^ 10) := by
  unfold farthest at isNear
  obtain ⟨nonneg, small⟩ := range
  generalize isDelta : inverse * distance / 2 ^ 10 = delta
  rcases Int.le_total 0 distance with above | below
  · have product : 0 ≤ inverse * distance := Int.mul_nonneg nonneg above
    have share : inverse * distance ≤ 1849 * distance :=
      Int.mul_le_mul_of_nonneg_right small above
    refine ⟨by omega, Int.mul_nonneg (by omega) above, fun close => ⟨by omega, ?_⟩⟩
    by_contra far
    have tooFar : 2564 * 1420 ≤ delta * distance :=
      mul_le_mul (by omega) (by omega) (by decide) (by omega)
    omega
  · have product : inverse * distance ≤ 0 := Int.mul_nonpos_of_nonneg_of_nonpos nonneg below
    have share : 1849 * distance ≤ inverse * distance :=
      Int.mul_le_mul_of_nonpos_right small below
    have sameSign : 0 ≤ delta * distance :=
      Int.mul_nonneg_of_nonpos_of_nonpos (by omega) below
    refine ⟨by omega, sameSign, fun close => ⟨?_, by omega⟩⟩
    by_contra far
    have tooFar : 2564 * 1420 ≤ -delta * -distance :=
      mul_le_mul (by omega) (by omega) (by decide) (by omega)
    rw [neg_mul_neg] at tooFar
    omega

/-- A feature that `WebRtcVad_CalculateFeatures` can give. -/
def IsFeature (feature : Int) : Prop :=
  176 ≤ feature ∧ feature ≤ 2053

/-- What the Gaussians keep. -/
structure Gaussian.Sound (gaussian : Gaussian) : Prop where
  mean : -1552 ≤ gaussian.mean ∧ gaussian.mean ≤ 19521
  std : 378 ≤ gaussian.std ∧ gaussian.std ≤ 4101

/-- What a probability is for a distance. -/
structure GaussianValue.Sound (distance : Int) (value : GaussianValue) : Prop where
  range : 0 ≤ value.probability ∧ value.probability ≤ 355328
  isDelta : IsDelta distance value.delta
  likely : 0 < value.probability → value.delta * distance < 3634688

/-- A quotient of magnitudes. -/
theorem divW32W16_of_pos
    {num den : Int}
    (nonneg : 0 ≤ num)
    (positive : 0 < den) :
    divW32W16 num den = num / den := by
  rw [divW32W16, if_pos positive.ne', Int.tdiv_eq_ediv_of_nonneg nonneg]

theorem gaussianProbability_agrees
    {feature : Int}
    {gaussian : Gaussian}
    (isFeature : IsFeature feature)
    (sound : gaussian.Sound) :
    Agrees
      (fun narrow => gaussianProbability narrow feature gaussian.mean gaussian.std)
      (GaussianValue.Sound (feature * 2 ^ 3 - gaussian.mean)) := by
  obtain ⟨mean, std⟩ := gaussian
  obtain ⟨⟨meanLow, meanHigh⟩, stdLow, stdHigh⟩ := sound
  obtain ⟨low, high⟩ := isFeature
  dsimp only at *
  simp only [gaussianProbability, Int.shiftRight_eq_div_pow, Nat.cast_pow, Nat.cast_ofNat]
  rw [divW32W16_of_pos (by omega) (by omega)]
  have inverseLow : 0 ≤ (131072 + std / 2 ^ 1) / std := Int.ediv_nonneg (by omega) (by omega)
  have inverseHigh : (131072 + std / 2 ^ 1) / std < 348 :=
    Int.ediv_lt_of_lt_mul (by omega) (by omega)
  generalize (131072 + std / 2 ^ 1) / std = invStd at *
  refine .kept (by omega) (by omega) ?_
  refine .kept (by omega) (by omega) ?_
  have squareLow : 0 ≤ invStd / 2 ^ 2 * (invStd / 2 ^ 2) := mul_self_nonneg _
  have squareHigh : invStd / 2 ^ 2 * (invStd / 2 ^ 2) ≤ 86 * 86 :=
    mul_le_mul (by omega) (by omega) (by omega) (by decide)
  generalize invStd / 2 ^ 2 * (invStd / 2 ^ 2) = square at *
  refine .kept (by omega) (by omega) ?_
  refine .kept (by omega) (by omega) ?_
  refine .kept (by omega) (by omega) ?_
  generalize isDistance : feature * 2 ^ 3 - mean = distance
  have isDelta :=
    @isDelta_of_inverse distance (square / 2 ^ 2) (by omega) (by unfold farthest; omega)
  generalize square / 2 ^ 2 * distance / 2 ^ 10 = delta at *
  refine .kept isDelta.fits.1 isDelta.fits.2 ?_
  have nonneg := isDelta.sameSign
  refine .bind (expValue_agrees (by omega)) fun value exponential => ?_
  obtain ⟨valueLow, valueHigh⟩ := exponential.range
  refine .pure ⟨⟨Int.mul_nonneg inverseLow valueLow, ?_⟩, isDelta, fun likely => ?_⟩
  · have product : invStd * value ≤ 347 * 1024 :=
      mul_le_mul (by omega) valueHigh valueLow (by decide)
    exact Int.le_trans product (by decide)
  · have positive : 0 < value := by
      by_contra none_
      obtain rfl : value = 0 := by omega
      rw [Int.mul_zero] at likely
      exact absurd likely (Int.lt_irrefl 0)
    have small := exponential.small positive
    dsimp only
    omega

/-! ## The likelihoods of a channel -/

/-- A property of both Gaussians is one of the first and of the second. -/
theorem PerGaussian.forall_iff
    {Value : Type}
    {values : PerGaussian Value}
    {holds : Fin kNumGaussians → Value → Prop} :
    (∀ k, holds k (values.at_ k)) ↔ holds 0 values.first ∧ holds 1 values.second :=
  Fin.forall_fin_two

/-- The narrowings agree on a loop over the Gaussians where they do on each of them. -/
theorem forGaussians_agrees
    {Value : Type}
    {body : Narrowing → Fin kNumGaussians → Option Value}
    {holds : Fin kNumGaussians → Value → Prop}
    (each : ∀ k, Agrees (fun narrow => body narrow k) (holds k)) :
    Agrees (fun narrow => forGaussians (body narrow))
      (fun values => ∀ k, holds k (values.at_ k)) := by
  refine .bind (each 0) fun first isFirst => ?_
  refine .bind (each 1) fun second isSecond => ?_
  exact .pure (PerGaussian.forall_iff.mpr ⟨isFirst, isSecond⟩)

/-- The weights of the Gaussians of a channel. -/
structure IsMixture (weights : Fin kNumGaussians → Int) : Prop where
  least : ∀ k, 25 ≤ weights k
  whole : weights 0 + weights 1 = 128

/-- The weights of a value add up to all of it. -/
theorem IsMixture.shares
    {weights : Fin kNumGaussians → Int}
    (mixture : IsMixture weights)
    (value : Int) :
    value * weights 0 + value * weights 1 = value * 2 ^ 7 := by
  rw [← mul_add, mixture.whole]
  rfl

/-- No weight is negative. -/
theorem IsMixture.nonneg
    {weights : Fin kNumGaussians → Int}
    (mixture : IsMixture weights)
    (k : Fin kNumGaussians) :
    0 ≤ weights k :=
  (show (0 : Int) ≤ 25 by decide).trans (mixture.least k)

theorem isMixture_noise (channel : Fin kNumChannels) :
    IsMixture (kNoiseDataWeights channel) := by
  constructor <;> revert channel <;> decide

theorem isMixture_speech (channel : Fin kNumChannels) :
    IsMixture (kSpeechDataWeights channel) := by
  constructor <;> revert channel <;> decide

/-- The weighted probabilities of the Gaussians of a channel, each and together. -/
structure AreWeighted (probability other : Int) : Prop where
  nonneg : 0 ≤ probability ∧ 0 ≤ other
  small : probability + other ≤ 128 * 355328

theorem areWeighted_of_sound
    {weights : Fin kNumGaussians → Int}
    (mixture : IsMixture weights)
    {distance : Fin kNumGaussians → Int}
    {values : PerGaussian GaussianValue}
    (sound : ∀ k, (values.at_ k).Sound (distance k)) :
    weighted (weights 0) values.first = weights 0 * values.first.probability ∧
      weighted (weights 1) values.second = weights 1 * values.second.probability ∧
      AreWeighted (weights 0 * values.first.probability)
        (weights 1 * values.second.probability) := by
  obtain ⟨⟨⟨low, high⟩, -, -⟩, ⟨otherLow, otherHigh⟩, -, -⟩ := PerGaussian.forall_iff.mp sound
  have least := mixture.least 0
  have otherLeast := mixture.least 1
  have whole := mixture.whole
  have nonneg := mul_nonneg (show 0 ≤ weights 0 by omega) low
  have otherNonneg := mul_nonneg (show 0 ≤ weights 1 by omega) otherLow
  have share := mul_le_mul_of_nonneg_left high (show 0 ≤ weights 0 by omega)
  have otherShare := mul_le_mul_of_nonneg_left otherHigh (show 0 ≤ weights 1 by omega)
  have small :
      weights 0 * values.first.probability + weights 1 * values.second.probability ≤
        128 * 355328 := by
    rw [← whole]
    linarith
  exact
    ⟨int32_of_bounds (by omega) (by omega), int32_of_bounds (by omega) (by omega),
      ⟨nonneg, otherNonneg⟩, small⟩

/-- Conditional probabilities in Q14, which are not zero only for a Gaussian with a
probability. -/
structure AreConditional (probability other : Int) (conditional : PerGaussian Int) : Prop where
  range : ∀ k, 0 ≤ conditional.at_ k ∧ conditional.at_ k ≤ 16384
  first : 0 < conditional.first → 0 < probability
  second : 0 < conditional.second → 0 < other

theorem conditional_agrees
    {probability other : Int}
    (areWeighted : AreWeighted probability other)
    (likely : 0 < (probability + other) / 2 ^ 12)
    (unlikely : PerGaussian Int) :
    Agrees
      (fun narrow => conditional narrow probability ((probability + other) / 2 ^ 12) unlikely)
      (AreConditional probability other) := by
  obtain ⟨⟨nonneg, otherNonneg⟩, small⟩ := areWeighted
  simp only [conditional, if_pos likely]
  generalize isH : (probability + other) / 2 ^ 12 = h at *
  have masked :
      int32 ((probability - probability % 2 ^ 12) * 2 ^ 2) =
        probability / 2 ^ 12 * 16384 := by
    rw [int32_of_bounds (by omega) (by omega)]
    omega
  rw [masked, divW32W16_of_pos (by omega) likely]
  have notBelow : 0 ≤ probability / 2 ^ 12 * 16384 / h :=
    Int.ediv_nonneg (by omega) likely.le
  have notAbove : probability / 2 ^ 12 * 16384 / h ≤ 16384 :=
    Int.ediv_le_of_le_mul likely (by omega)
  have alone : other = 0 → probability / 2 ^ 12 * 16384 / h = 16384 := by
    rintro rfl
    rw [Int.add_zero] at isH
    rw [isH, Int.mul_ediv_cancel_left _ likely.ne']
  have none_ : probability = 0 → probability / 2 ^ 12 * 16384 / h = 0 := by
    rintro rfl
    exact Int.zero_ediv h
  generalize probability / 2 ^ 12 * 16384 / h = first at *
  refine .kept (by omega) (by omega) ?_
  refine .kept (by omega) (by omega) ?_
  have rest : 0 ≤ 16384 - first ∧ 16384 - first ≤ 16384 := by omega
  refine .pure ⟨Fin.forall_fin_two.mpr ⟨⟨notBelow, notAbove⟩, rest⟩, ?_, ?_⟩
  · intro positive
    dsimp only at positive
    omega
  · intro positive
    dsimp only at positive
    omega

/-- What the first loop finds for a channel with these means. -/
structure ChannelLikelihood.Sound
    (feature : Int)
    (model : ChannelModel)
    (found : ChannelLikelihood) : Prop where
  noise :
    ∀ k, (found.noise.at_ k).Sound (feature * 2 ^ 3 - (model.noise.at_ k).mean)
  speech :
    ∀ k, (found.speech.at_ k).Sound (feature * 2 ^ 3 - (model.speech.at_ k).mean)
  ngprvec : ∀ k, 0 ≤ found.ngprvec.at_ k ∧ found.ngprvec.at_ k ≤ 16384
  sgprvec : ∀ k, 0 ≤ found.sgprvec.at_ k ∧ found.sgprvec.at_ k ≤ 16384
  likelyNoise :
    0 < found.h0 → ∀ k, 0 < found.ngprvec.at_ k → 0 < (found.noise.at_ k).probability
  likelySpeech : ∀ k, 0 < found.sgprvec.at_ k → 0 < (found.speech.at_ k).probability

/-- What both Gaussians of both hypotheses keep. -/
structure ChannelModel.Gaussians (model : ChannelModel) : Prop where
  noise : ∀ k, (model.noise.at_ k).Sound
  speech : ∀ k, (model.speech.at_ k).Sound

/-- A product with a positive weight is positive only for a positive probability. -/
theorem IsMixture.pos_of_mul
    {weights : Fin kNumGaussians → Int}
    (mixture : IsMixture weights)
    {k : Fin kNumGaussians}
    {probability : Int}
    (positive : 0 < weights k * probability) :
    0 < probability := by
  have least := mixture.least k
  exact (mul_pos_iff_of_pos_left (by omega)).mp positive

/-- The conditional probabilities of the Gaussians of a channel, in any narrowing. -/
theorem conditional_sound
    {weights : Fin kNumGaussians → Int}
    (mixture : IsMixture weights)
    {distance : Fin kNumGaussians → Int}
    {values : PerGaussian GaussianValue}
    (sound : ∀ k, (values.at_ k).Sound (distance k))
    {unlikely : PerGaussian Int}
    (unlikelyRange : ∀ k, 0 ≤ unlikely.at_ k ∧ unlikely.at_ k ≤ 16384) :
    let both :=
      int32 (weighted (weights 0) values.first + weighted (weights 1) values.second)
    (0 ≤ both >>> (12 : Nat) ∧ both >>> (12 : Nat) < 2 ^ 15) ∧
      Agrees
        (fun narrow =>
          conditional narrow (weighted (weights 0) values.first) (both >>> (12 : Nat)) unlikely)
        (fun found =>
          (∀ k, 0 ≤ found.at_ k ∧ found.at_ k ≤ 16384) ∧
            (0 < both >>> (12 : Nat) →
              ∀ k, 0 < found.at_ k → 0 < (values.at_ k).probability) ∧
            (¬ 0 < both >>> (12 : Nat) → found = unlikely)) := by
  obtain ⟨first, second, areWeighted⟩ := areWeighted_of_sound mixture sound
  have ⟨⟨nonneg, otherNonneg⟩, small⟩ := areWeighted
  dsimp only
  rw [first, second, int32_of_bounds (by omega) (by omega), Int.shiftRight_eq_div_pow,
    Nat.cast_pow, Nat.cast_ofNat]
  refine ⟨by omega, ?_⟩
  by_cases likely :
      0 < (weights 0 * values.first.probability + weights 1 * values.second.probability) / 2 ^ 12
  · refine (conditional_agrees areWeighted likely unlikely).imp fun found areConditional => ?_
    refine ⟨areConditional.range, fun _ => ?_, fun absurd_ => absurd likely absurd_⟩
    exact
      Fin.forall_fin_two.mpr
        ⟨fun positive => mixture.pos_of_mul (areConditional.first positive),
          fun positive => mixture.pos_of_mul (areConditional.second positive)⟩
  · simp only [conditional, if_neg likely]
    exact .pure ⟨unlikelyRange, fun positive => absurd positive likely, fun _ => rfl⟩

theorem likelihood_agrees
    {feature : Int}
    {model : ChannelModel}
    (isFeature : IsFeature feature)
    (gaussians : model.Gaussians)
    (channel : Fin kNumChannels) :
    Agrees
      (fun narrow => likelihood narrow channel feature model)
      (fun found => found.channel = channel ∧ found.Sound feature model) := by
  refine
    .bind (forGaussians_agrees fun k => gaussianProbability_agrees isFeature (gaussians.noise k))
      fun noise noiseSound => ?_
  refine
    .bind (forGaussians_agrees fun k => gaussianProbability_agrees isFeature (gaussians.speech k))
      fun speech speechSound => ?_
  have unlikelyNoise : ∀ k : Fin kNumGaussians,
      0 ≤ (⟨16384, 0⟩ : PerGaussian Int).at_ k ∧
        (⟨16384, 0⟩ : PerGaussian Int).at_ k ≤ 16384 := by
    decide
  have unlikelySpeech : ∀ k : Fin kNumGaussians,
      0 ≤ (⟨0, 0⟩ : PerGaussian Int).at_ k ∧ (⟨0, 0⟩ : PerGaussian Int).at_ k ≤ 16384 := by
    decide
  dsimp only
  obtain ⟨h0Range, ngprvecAgrees⟩ :=
    conditional_sound (isMixture_noise channel) noiseSound unlikelyNoise
  obtain ⟨h1Range, sgprvecAgrees⟩ :=
    conditional_sound (isMixture_speech channel) speechSound unlikelySpeech
  refine Agrees.kept (by omega) (by omega) ?_
  refine .bind ngprvecAgrees fun ngprvec ⟨ngprRange, ngprLikely, _⟩ => ?_
  refine Agrees.kept (by omega) (by omega) ?_
  refine .bind sgprvecAgrees fun sgprvec ⟨sgprRange, sgprLikely, sgprUnlikely⟩ => ?_
  refine
    .pure ⟨rfl, noiseSound, speechSound, ngprRange, sgprRange, ngprLikely, fun k positive => ?_⟩
  by_cases likely : 0 < int32 (weighted (kSpeechDataWeights channel 0) speech.first +
      weighted (kSpeechDataWeights channel 1) speech.second) >>> (12 : Nat)
  · exact sgprLikely likely k positive
  · rw [sgprUnlikely likely] at positive
    have none_ : ∀ k, ¬ 0 < (⟨0, 0⟩ : PerGaussian Int).at_ k := by
      decide
    exact absurd positive (none_ k)

end ApmSdk.Vad
