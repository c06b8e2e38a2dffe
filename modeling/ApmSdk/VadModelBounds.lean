import ApmSdk.VadGaussians
import ApmSdk.VadModelUpdate

namespace ApmSdk.Vad

/-!
# What an update of the models of the voice detector can store

Each of the steps of an update keeps its values within 16 bits, given what the Gaussians keep
between the frames, and gives the same in every narrowing that is admitted.
-/

/-! ## Numbers of the update -/

/-- A conditional probability and `delta`, which is small where there is a probability. -/
structure IsShare (conditional delta : Int) : Prop where
  range : 0 ≤ conditional ∧ conditional ≤ 16384
  near : 0 < conditional → -2563 ≤ delta ∧ delta ≤ 2563

theorem IsShare.product
    {conditional delta : Int}
    (isShare : IsShare conditional delta) :
    -20504 * 2 ^ 11 ≤ conditional * delta ∧ conditional * delta ≤ 20504 * 2 ^ 11 := by
  obtain ⟨⟨nonneg, small⟩, near⟩ := isShare
  rcases nonneg.eq_or_lt with none_ | positive
  · rw [← none_, Int.zero_mul]
    decide
  · obtain ⟨low, high⟩ := near positive
    constructor <;> nlinarith

theorem ChannelLikelihood.Sound.noiseShare
    {feature : Int}
    {model : ChannelModel}
    {found : ChannelLikelihood}
    (sound : found.Sound feature model)
    (likely : 0 < found.h0)
    (k : Fin kNumGaussians) :
    IsShare (found.ngprvec.at_ k) (found.noise.at_ k).delta :=
  ⟨sound.ngprvec k, fun positive =>
    (sound.noise k).isDelta.near
      ((sound.noise k).likely (sound.likelyNoise likely k positive))⟩

theorem ChannelLikelihood.Sound.speechShare
    {feature : Int}
    {model : ChannelModel}
    {found : ChannelLikelihood}
    (sound : found.Sound feature model)
    (k : Fin kNumGaussians) :
    IsShare (found.sgprvec.at_ k) (found.speech.at_ k).delta :=
  ⟨sound.sgprvec k, fun positive =>
    (sound.speech k).isDelta.near ((sound.speech k).likely (sound.likelySpeech k positive))⟩

/-! ## The means of a Gaussian -/

/-- `maxspe` when a channel is updated. -/
def maxspeAt : Nat → Int
  | 0 => 12800
  | channel + 1 =>
      if inside : channel < kNumChannels then kMaximumSpeech ⟨channel, inside⟩ else 0

/-- The limits of a noise mean. -/
structure NoiseMeanIn (channel : Fin kNumChannels) (k : Fin kNumGaussians) (mean : Int) : Prop where
  lower : (k + 5) * 2 ^ 7 ≤ mean
  upper : mean ≤ (72 + k - channel) * 2 ^ 7

/-- What the update of a Gaussian is handed. -/
structure GaussianUpdate.Sound (update : GaussianUpdate) (model : ChannelModel) : Prop where
  isFeature : IsFeature update.feature
  isMinimum : IsFeature update.featureMinimum
  globalMean : 82 ≤ update.noiseGlobalMean ∧ update.noiseGlobalMean < 18434
  maxspe : 11392 ≤ update.maxspe ∧ update.maxspe ≤ 12800
  likelihood : update.likelihood.Sound update.feature model
  isNoise : update.noise = model.noise.at_ update.k
  isSpeech : update.speech = model.speech.at_ update.k
  noise : update.noise.Sound
  speech : update.speech.Sound
  speechStd : 384 ≤ update.speech.std ∧ update.speech.std ≤ 3291

namespace GaussianUpdate

variable {update : GaussianUpdate}
variable {model : ChannelModel}

/-- A step of the noise mean by `delt` is small. -/
theorem moved_agrees
    (sound : update.Sound model)
    {delt : Int}
    (fits : -2 ^ 15 ≤ delt ∧ delt < 2 ^ 15) :
    Agrees
      (fun narrow => do
        let tmp ← narrow .other ((delt * kNoiseUpdateConst) >>> (22 : Nat))
        narrow .other (update.noise.mean + tmp))
      (fun nmk2 => update.noise.mean - 6 ≤ nmk2 ∧ nmk2 ≤ update.noise.mean + 5) := by
  obtain ⟨meanLow, meanHigh⟩ := sound.noise.mean
  simp only [kNoiseUpdateConst, Int.shiftRight_eq_div_pow, Nat.cast_pow, Nat.cast_ofNat]
  refine .kept (by omega) (by omega) ?_
  exact .returned (by omega) (by omega) (by omega)

theorem movedNoiseMean_agrees
    (sound : update.Sound model)
    (vadflag : Bool) :
    Agrees (fun narrow => update.movedNoiseMean narrow vadflag)
      (fun nmk2 => update.noise.mean - 6 ≤ nmk2 ∧ nmk2 ≤ update.noise.mean + 5) := by
  cases vadflag with
  | true =>
      exact .pure (by omega)
  | false =>
      simp only [movedNoiseMean, placeOfDelt, Bool.false_eq_true, if_false]
      by_cases likely : 0 < update.likelihood.h0
      · obtain ⟨low, high⟩ := (sound.likelihood.noiseShare likely update.k).product
        simp only [if_pos likely]
        refine .kept ?_ ?_ (moved_agrees sound ?_)
        all_goals
          rw [Int.shiftRight_eq_div_pow, Nat.cast_pow, Nat.cast_ofNat]
          omega
      · simp only [if_neg likely]
        exact .wrapped (by decide) (moved_agrees sound (int16_bounds _))

theorem noiseMean_agrees
    (sound : update.Sound model)
    (vadflag : Bool) :
    Agrees (fun narrow => update.noiseMean narrow vadflag)
      (NoiseMeanIn update.channel update.k) := by
  obtain ⟨meanLow, meanHigh⟩ := sound.noise.mean
  obtain ⟨minimumLow, minimumHigh⟩ := sound.isMinimum
  obtain ⟨globalLow, globalHigh⟩ := sound.globalMean
  have channelInside : (update.channel.val : Int) < 6 := by exact_mod_cast update.channel.isLt
  have kInside : (update.k.val : Int) < 2 := by exact_mod_cast update.k.isLt
  refine .bind (movedNoiseMean_agrees sound vadflag) fun nmk2 moved => ?_
  simp only [kBackEta, Int.shiftRight_eq_div_pow, Nat.cast_pow, Nat.cast_ofNat]
  refine Agrees.kept (by omega) (by omega) ?_
  refine Agrees.kept (by omega) (by omega) ?_
  refine Agrees.kept (by omega) (by omega) ?_
  refine Agrees.kept (by omega) (by omega) ?_
  refine Agrees.kept (by omega) (by omega) ?_
  refine .pure ⟨?_, ?_⟩ <;> split_ifs <;> omega

theorem speechMean_agrees (sound : update.Sound model) :
    Agrees (fun narrow => update.speechMean narrow)
      (fun mean => kMinimumMean update.k ≤ mean ∧ mean ≤ update.maxspe + 640) := by
  obtain ⟨meanLow, meanHigh⟩ := sound.speech.mean
  obtain ⟨maxspeLow, maxspeHigh⟩ := sound.maxspe
  obtain ⟨shareLow, shareHigh⟩ := (sound.likelihood.speechShare update.k).product
  have minimum : kMinimumMean update.k ≤ 768 := by
    generalize update.k = k
    revert k
    decide
  simp only [speechMean, kSpeechUpdateConst, Int.shiftRight_eq_div_pow, Nat.cast_pow,
    Nat.cast_ofNat]
  refine .kept (by omega) (by omega) ?_
  refine .kept (by omega) (by omega) ?_
  refine .kept (by omega) (by omega) ?_
  refine .kept (by omega) (by omega) ?_
  refine .pure ?_
  split_ifs <;> omega

/-! ## The deviations of a Gaussian -/

/-- A quotient by way of its magnitude is the truncated one. -/
theorem dividedBy_agrees
    {den value : Int}
    (nonzero : den ≠ 0)
    (word : -2 ^ 31 < value ∧ value < 2 ^ 31)
    (fits : -2 ^ 15 < Int.tdiv value den ∧ Int.tdiv value den < 2 ^ 15) :
    Agrees (fun narrow => dividedBy narrow den value) (· = Int.tdiv value den) := by
  by_cases positive : 0 < value
  · simp only [dividedBy, if_pos positive, divW32W16, if_pos nonzero]
    exact .returned (by omega) (by omega) rfl
  · simp only [dividedBy, if_neg positive, divW32W16, if_pos nonzero]
    rw [int32_of_bounds (by omega) (by omega), Int.neg_tdiv]
    refine .kept (by omega) (by omega) ?_
    exact .returned (by omega) (by omega) (Int.neg_neg _)

theorem noiseStd_agrees (sound : update.Sound model) :
    Agrees (fun narrow => update.noiseStd narrow)
      (fun std => kMinStd ≤ std ∧ std ≤ 4101) := by
  obtain ⟨meanLow, meanHigh⟩ := sound.noise.mean
  obtain ⟨stdLow, stdHigh⟩ := sound.noise.std
  obtain ⟨low, high⟩ := sound.isFeature
  obtain ⟨shareLow, shareHigh⟩ := sound.likelihood.ngprvec update.k
  simp only [noiseStd, Int.shiftRight_eq_div_pow, Nat.cast_pow, Nat.cast_ofNat]
  refine .kept (by omega) (by omega) ?_
  refine .kept (by omega) (by omega) ?_
  generalize isWord :
    int32 ((update.likelihood.ngprvec.at_ update.k + 2) / 2 ^ 2 *
      int32 ((update.likelihood.noise.at_ update.k).delta *
        (update.feature - update.noise.mean / 2 ^ 3) / 2 ^ 3 - 4096)) = word
  have wordRange := int32_bounds
    ((update.likelihood.ngprvec.at_ update.k + 2) / 2 ^ 2 *
      int32 ((update.likelihood.noise.at_ update.k).delta *
        (update.feature - update.noise.mean / 2 ^ 3) / 2 ^ 3 - 4096))
  rw [isWord] at wordRange
  have positive : 0 < update.noise.std := by omega
  -- the quotient is too small to count once the deviation is large
  have small : Int.tdiv (word / 2 ^ 14) update.noise.std < 347 :=
    (tdiv_lt_iff positive (by decide)).mpr (by omega)
  have notFarBelow : -347 < Int.tdiv (word / 2 ^ 14) update.noise.std :=
    (neg_lt_tdiv_iff positive (by decide)).mpr (by omega)
  have tiny : 4096 ≤ update.noise.std → Int.tdiv (word / 2 ^ 14) update.noise.std < 32 :=
    fun large => (tdiv_lt_iff positive (by decide)).mpr (by omega)
  refine .bind (dividedBy_agrees positive.ne' (by omega) (by omega)) fun tmp isTmp => ?_
  rw [← isTmp] at small notFarBelow tiny
  refine Agrees.kept (by omega) (by omega) ?_
  refine Agrees.kept (by omega) (by omega) ?_
  refine .pure ?_
  unfold limitedStd kMinStd
  split_ifs <;> omega

/-- `delta` times the distance in Q4, from its product with the distance in Q7. -/
theorem deviation_bounds
    {delta feature mean : Int}
    (near : -2563 ≤ delta ∧ delta ≤ 2563)
    (sameSign : 0 ≤ delta * (feature * 2 ^ 3 - mean))
    (close : delta * (feature * 2 ^ 3 - mean) < 3634688) :
    -1282 ≤ delta * (feature - (mean + 4) / 2 ^ 3) ∧
      delta * (feature - (mean + 4) / 2 ^ 3) ≤ 455618 := by
  obtain ⟨low, high⟩ := near
  obtain ⟨rounding, isRounding⟩ :
      ∃ rounding, (feature - (mean + 4) / 2 ^ 3) * 2 ^ 3 =
        feature * 2 ^ 3 - mean + rounding :=
    ⟨_, (add_sub_cancel _ _).symm⟩
  have roundingLow : -4 ≤ rounding := by omega
  have roundingHigh : rounding ≤ 3 := by omega
  have whole :
      delta * (feature - (mean + 4) / 2 ^ 3) * 2 ^ 3 =
        delta * (feature * 2 ^ 3 - mean) + delta * rounding := by
    rw [Int.mul_assoc, isRounding, Int.mul_add]
  have lost : -(4 * 2563) ≤ delta * rounding ∧ delta * rounding ≤ 4 * 2563 := by
    constructor <;> nlinarith
  generalize delta * (feature * 2 ^ 3 - mean) = product at *
  generalize delta * (feature - (mean + 4) / 2 ^ 3) = deviation at *
  omega

/-- The step of a speech deviation before its division. -/
theorem speechStep_bounds
    (sound : update.Sound model) :
    let deviation :=
      (update.likelihood.speech.at_ update.k).delta *
        (update.feature - (update.speech.mean + 4) / 2 ^ 3)
    let step :=
      int32 (update.likelihood.sgprvec.at_ update.k / 2 ^ 2 *
        int32 (deviation / 2 ^ 3 - 4096)) / 2 ^ 4
    step ≤ 13531136 ∧ -1089792 ≤ step := by
  dsimp only
  obtain ⟨⟨shareLow, shareHigh⟩, near⟩ := sound.likelihood.speechShare update.k
  have isValue := sound.likelihood.speech update.k
  have likely := sound.likelihood.likelySpeech update.k
  rw [← sound.isSpeech] at isValue
  rcases shareLow.eq_or_lt with none_ | positive
  · rw [← none_]
    norm_num
    decide
  · obtain ⟨low, high⟩ :=
      deviation_bounds (near positive) isValue.isDelta.sameSign (isValue.likely (likely positive))
    generalize (update.likelihood.speech.at_ update.k).delta *
      (update.feature - (update.speech.mean + 4) / 2 ^ 3) = deviation at *
    rw [@int32_of_bounds (deviation / 2 ^ 3 - 4096) (by omega) (by omega)]
    have weightLow : 0 ≤ update.likelihood.sgprvec.at_ update.k / 2 ^ 2 := by omega
    have weightHigh : update.likelihood.sgprvec.at_ update.k / 2 ^ 2 ≤ 4096 := by omega
    generalize update.likelihood.sgprvec.at_ update.k / 2 ^ 2 = weight at *
    have stepLow : -4257 ≤ deviation / 2 ^ 3 - 4096 := by omega
    have stepHigh : deviation / 2 ^ 3 - 4096 ≤ 52856 := by omega
    generalize deviation / 2 ^ 3 - 4096 = step at *
    have productLow : 4096 * -4257 ≤ weight * step := by nlinarith
    have productHigh : weight * step ≤ 4096 * 52856 := by nlinarith
    rw [int32_of_bounds (by omega) (by omega)]
    omega

/-- The quotient for a speech deviation, with a divisor that wraps when it is large. -/
theorem speechQuotient_bounds
    {std step : Int}
    (range : 384 ≤ std ∧ std ≤ 3291)
    (stepRange : step ≤ 13531136 ∧ -1089792 ≤ step) :
    let quotient := Int.tdiv step (int16 (std * 10))
    int16 (std * 10) ≠ 0 ∧ -416 < quotient ∧ quotient < 3524 ∧ (3276 < std → quotient < 34) := by
  dsimp only
  by_cases fits : std ≤ 3276
  · rw [int16_of_bounds (by omega) (by omega)]
    have positive : 0 < std * 10 := by omega
    have below : Int.tdiv step (std * 10) < 3524 :=
      (tdiv_lt_iff positive (by decide)).mpr (by omega)
    have above : -284 < Int.tdiv step (std * 10) :=
      (neg_lt_tdiv_iff positive (by decide)).mpr (by omega)
    omega
  · have wrapped : int16 (std * 10) = -(65536 - std * 10) := by
      unfold int16
      rw [Int.bmod_def]
      omega
    have positive : 0 < 65536 - std * 10 := by omega
    rw [wrapped, Int.tdiv_neg]
    have below : Int.tdiv step (65536 - std * 10) < 416 :=
      (tdiv_lt_iff positive (by decide)).mpr (by omega)
    have above : -34 < Int.tdiv step (65536 - std * 10) :=
      (neg_lt_tdiv_iff positive (by decide)).mpr (by omega)
    omega

theorem speechStd_agrees (sound : update.Sound model) :
    Agrees (fun narrow => update.speechStd narrow)
      (fun std => kMinStd ≤ std ∧ std ≤ 3291) := by
  obtain ⟨meanLow, meanHigh⟩ := sound.speech.mean
  obtain ⟨low, high⟩ := sound.isFeature
  obtain ⟨stdLow, stdHigh⟩ := sound.speechStd
  obtain ⟨shareLow, shareHigh⟩ := sound.likelihood.sgprvec update.k
  have stepRange := speechStep_bounds sound
  simp only [speechStd, Int.shiftRight_eq_div_pow, Nat.cast_pow, Nat.cast_ofNat]
  refine .kept (by omega) (by omega) ?_
  refine .kept (by omega) (by omega) ?_
  refine .kept (by omega) (by omega) ?_
  dsimp only at stepRange
  generalize int32 (update.likelihood.sgprvec.at_ update.k / 2 ^ 2 *
    int32 ((update.likelihood.speech.at_ update.k).delta *
      (update.feature - (update.speech.mean + 4) / 2 ^ 3) / 2 ^ 3 - 4096)) / 2 ^ 4 = step at *
  obtain ⟨nonzero, quotientLow, quotientHigh, wrapped⟩ :=
    speechQuotient_bounds ⟨stdLow, stdHigh⟩ stepRange
  refine .wrapped (by decide) ?_
  refine .bind (dividedBy_agrees nonzero (by omega) (by omega)) fun tmp isTmp => ?_
  rw [← isTmp] at quotientLow quotientHigh wrapped
  refine Agrees.kept (by omega) (by omega) ?_
  refine Agrees.kept (by omega) (by omega) ?_
  refine .pure ?_
  unfold limitedStd kMinStd
  split_ifs <;> omega

/-- What the pass for a Gaussian leaves. -/
structure Leaves (update : GaussianUpdate) (vadflag : Bool) (next : Gaussian × Gaussian) :
    Prop where
  noiseMean : NoiseMeanIn update.channel update.k next.1.mean
  noiseStd : min update.noise.std kMinStd ≤ next.1.std ∧ next.1.std ≤ 4101
  speech : vadflag = false → next.2 = update.speech
  speechMean :
    vadflag = true →
      kMinimumMean update.k ≤ next.2.mean ∧ next.2.mean ≤ update.maxspe + 640
  speechStd : kMinStd ≤ next.2.std ∧ next.2.std ≤ 3291

theorem apply_agrees
    (sound : update.Sound model)
    (vadflag : Bool) :
    Agrees (fun narrow => update.apply narrow vadflag) (update.Leaves vadflag) := by
  refine .bind (noiseMean_agrees sound vadflag) fun noiseMean meanIn => ?_
  cases vadflag with
  | true =>
      simp only [if_true]
      refine .bind (speechMean_agrees sound) fun speechMean speechMeanIn => ?_
      refine .bind (speechStd_agrees sound) fun speechStd speechStdIn => ?_
      refine .pure ⟨meanIn, ⟨min_le_left _ _, sound.noise.std.2⟩, fun silent => ?_,
        fun _ => speechMeanIn, speechStdIn⟩
      contradiction
  | false =>
      simp only [Bool.false_eq_true, if_false]
      refine .bind (noiseStd_agrees sound) fun noiseStd noiseStdIn => ?_
      refine .pure ⟨meanIn, ⟨?_, noiseStdIn.2⟩, fun _ => rfl, fun speaks => ?_,
        sound.speechStd⟩
      · exact min_le_of_right_le noiseStdIn.1
      · contradiction

end GaussianUpdate

/-! ## Weighted means -/

/-- The weighted sum of the means of a model. -/
def weightedSum
    (weights : Fin kNumGaussians → Int)
    (data : PerGaussian Gaussian) : Int :=
  data.first.mean * weights 0 + data.second.mean * weights 1

/-- The Gaussians with their means moved. -/
def PerGaussian.moved (data : PerGaussian Gaussian) (offset : Int) : PerGaussian Gaussian :=
  ⟨⟨data.first.mean + offset, data.first.std⟩, ⟨data.second.mean + offset, data.second.std⟩⟩

theorem PerGaussian.moved_zero (data : PerGaussian Gaussian) : data.moved 0 = data := by
  unfold PerGaussian.moved
  rw [Int.add_zero, Int.add_zero]

section Weighted

variable {weights : Fin kNumGaussians → Int}
variable {data : PerGaussian Gaussian}

theorem weightedSum_moved
    (mixture : IsMixture weights)
    (offset : Int) :
    weightedSum weights (data.moved offset) = weightedSum weights data + offset * 2 ^ 7 := by
  rw [← mixture.shares]
  unfold weightedSum PerGaussian.moved
  ring

/-- The weighted sum is at least that of a lower bound. -/
theorem le_weightedSum
    (mixture : IsMixture weights)
    {lower : Int}
    (above : ∀ k, lower ≤ (data.at_ k).mean) :
    lower * 2 ^ 7 ≤ weightedSum weights data := by
  rw [← mixture.shares]
  exact
    add_le_add
      (mul_le_mul_of_nonneg_right (above 0) (mixture.nonneg 0))
      (mul_le_mul_of_nonneg_right (above 1) (mixture.nonneg 1))

/-- The weighted sum is at most that of an upper bound. -/
theorem weightedSum_le
    (mixture : IsMixture weights)
    {upper : Int}
    (below : ∀ k, (data.at_ k).mean ≤ upper) :
    weightedSum weights data ≤ upper * 2 ^ 7 := by
  rw [← mixture.shares]
  exact
    add_le_add
      (mul_le_mul_of_nonneg_right (below 0) (mixture.nonneg 0))
      (mul_le_mul_of_nonneg_right (below 1) (mixture.nonneg 1))

/-- How far the means of a model are apart. -/
def Spread (bound : Int) (data : PerGaussian Gaussian) : Prop :=
  -bound ≤ data.first.mean - data.second.mean ∧ data.first.mean - data.second.mean ≤ bound

/-- Each mean is as close to the weighted one as the spread allows. -/
theorem mean_of_spread
    (mixture : IsMixture weights)
    {bound share : Int}
    (spread : Spread bound data)
    (shares : ∀ k, bound * weights k ≤ share)
    (k : Fin kNumGaussians) :
    weightedSum weights data - share ≤ (data.at_ k).mean * 2 ^ 7 ∧
      (data.at_ k).mean * 2 ^ 7 ≤ weightedSum weights data + share := by
  obtain ⟨low, high⟩ := spread
  have first := mixture.nonneg 0
  have second := mixture.nonneg 1
  have isSecond : weights 1 = 128 - weights 0 := by have := mixture.whole; omega
  have firstShare := shares 0
  have secondShare := shares 1
  have lowFirst := mul_le_mul_of_nonneg_right low first
  have highFirst := mul_le_mul_of_nonneg_right high first
  have lowSecond := mul_le_mul_of_nonneg_right low second
  have highSecond := mul_le_mul_of_nonneg_right high second
  unfold weightedSum
  rw [isSecond] at lowSecond highSecond secondShare ⊢
  revert k
  rw [Fin.forall_fin_two]
  dsimp only [PerGaussian.at_]
  constructor
  · rw [if_pos rfl]
    constructor <;> linarith
  · rw [if_neg (by decide)]
    constructor <;> linarith

end Weighted

end ApmSdk.Vad
