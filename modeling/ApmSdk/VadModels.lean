import ApmSdk.VadFilterbank
import ApmSdk.VadHangover
import ApmSdk.VadMinimum

namespace ApmSdk.Vad

/-!
# The Gaussian mixture models of the voice detector

`GmmProbability` compares how likely the features of a frame are under a model of noise and
under one of speech, and moves the models towards the features.  For each channel a model has
two Gaussians.  The computation is written for any narrowing to 16 bits: that of the code wraps,
a lossless one has no value instead.
-/

/-- Where a value is narrowed to 16 bits: `delt` of a channel without noise likelihood, the
divisor `ssk * 10`, or any other place. -/
inductive Place where
  | unlikelyDelt
  | divisor
  | other
deriving Repr, DecidableEq

/-- What becomes of a value that is narrowed to 16 bits. -/
abbrev Narrowing : Type :=
  Place → Int → Option Int

/-- The narrowing of the code. -/
def narrowing : Narrowing :=
  fun _ value => some (int16 value)

/-- Nothing may be lost. -/
def lossless : Narrowing :=
  fun _ => checked int16

/-- Nothing may be lost but at the two places that are told apart. -/
def losslessElsewhere : Narrowing
  | .other => checked int16
  | .unlikelyDelt => narrowing .unlikelyDelt
  | .divisor => narrowing .divisor

/-! ## `WebRtcVad_GaussianProbability` -/

/-- `kCompVar` -/
def kCompVar : Int :=
  22005

/-- `kLog2Exp`, in Q12. -/
def kLog2Exp : Int :=
  5909

/-- A probability in Q20, and `delta` in Q11. -/
structure GaussianValue where
  probability : Int
  delta : Int
deriving Repr, DecidableEq

/-- `exp_value` for an exponent in Q10. -/
def expValue (narrow : Narrowing) (tmp32 : Int) : Option Int :=
  if tmp32 < kCompVar then do
    let tmp16 ← narrow .other (int32 (kLog2Exp * tmp32) >>> (12 : Nat))
    let tmp16 ← narrow .other (-tmp16)
    -- `0x0400 | (tmp16 & 0x03FF)`
    let value := 1024 + tmp16 % 1024
    -- `tmp16 ^= 0xFFFF` is the complement of 16 bits
    let tmp16 := -tmp16 - 1
    let tmp16 ← narrow .other (tmp16 >>> (10 : Nat) + 1)
    return value >>> tmp16.toNat
  else return 0

/-- `WebRtcVad_GaussianProbability` -/
def gaussianProbability
    (narrow : Narrowing)
    (input mean std : Int) : Option GaussianValue := do
  let tmp32 := 131072 + std >>> (1 : Nat)
  let invStd ← narrow .other (divW32W16 tmp32 std)
  let tmp16 ← narrow .other (invStd >>> (2 : Nat))
  let invStd2 ← narrow .other ((tmp16 * tmp16) >>> (2 : Nat))
  let tmp16 ← narrow .other (input * 2 ^ 3)
  let tmp16 ← narrow .other (tmp16 - mean)
  let delta ← narrow .other ((invStd2 * tmp16) >>> (10 : Nat))
  let value ← expValue narrow ((delta * tmp16) >>> (9 : Nat))
  return ⟨invStd * value, delta⟩

/-! ## Tables -/

/-- `kNumGaussians` -/
abbrev kNumGaussians : Nat :=
  2

scoped instance : NeZero kNumGaussians :=
  ⟨Nat.succ_ne_zero 1⟩

/-- An entry of a table for the Gaussians of all channels. -/
def entryOf
    (table : List Int)
    (channel : Fin kNumChannels)
    (k : Fin kNumGaussians) : Int :=
  table.getD (channel + k * kNumChannels) 0

/-- `kSpectrumWeight` -/
def kSpectrumWeight (channel : Fin kNumChannels) : Int :=
  [6, 8, 10, 12, 14, 16].getD channel 0

/-- `kNoiseUpdateConst`, in Q15. -/
def kNoiseUpdateConst : Int :=
  655

/-- `kSpeechUpdateConst`, in Q15. -/
def kSpeechUpdateConst : Int :=
  6554

/-- `kBackEta`, in Q8. -/
def kBackEta : Int :=
  154

/-- `kMinimumDifference`, in Q5. -/
def kMinimumDifference (channel : Fin kNumChannels) : Int :=
  [544, 544, 576, 576, 576, 576].getD channel 0

/-- `kMaximumSpeech`, in Q7. -/
def kMaximumSpeech (channel : Fin kNumChannels) : Int :=
  [11392, 11392, 11520, 11520, 11520, 11520].getD channel 0

/-- `kMinimumMean` -/
def kMinimumMean (k : Fin kNumGaussians) : Int :=
  [640, 768].getD k 0

/-- `kMaximumNoise`, in Q7. -/
def kMaximumNoise (channel : Fin kNumChannels) : Int :=
  [9216, 9088, 8960, 8832, 8704, 8576].getD channel 0

/-- `kNoiseDataWeights` -/
def kNoiseDataWeights : Fin kNumChannels → Fin kNumGaussians → Int :=
  entryOf [34, 62, 72, 66, 53, 25, 94, 66, 56, 62, 75, 103]

/-- `kSpeechDataWeights` -/
def kSpeechDataWeights : Fin kNumChannels → Fin kNumGaussians → Int :=
  entryOf [48, 82, 45, 87, 50, 47, 80, 46, 83, 41, 78, 81]

/-- `kNoiseDataMeans` -/
def kNoiseDataMeans : Fin kNumChannels → Fin kNumGaussians → Int :=
  entryOf [6738, 4892, 7065, 6715, 6771, 3369, 7646, 3863, 7820, 7266, 5020, 4362]

/-- `kSpeechDataMeans` -/
def kSpeechDataMeans : Fin kNumChannels → Fin kNumGaussians → Int :=
  entryOf [8306, 10085, 10078, 11823, 11843, 6309, 9473, 9571, 10879, 7581, 8180, 7483]

/-- `kNoiseDataStds` -/
def kNoiseDataStds : Fin kNumChannels → Fin kNumGaussians → Int :=
  entryOf [378, 1064, 493, 582, 688, 593, 474, 697, 475, 688, 421, 455]

/-- `kSpeechDataStds` -/
def kSpeechDataStds : Fin kNumChannels → Fin kNumGaussians → Int :=
  entryOf [555, 505, 567, 524, 585, 1231, 509, 828, 492, 1540, 1079, 850]

/-- `kMinStd` -/
def kMinStd : Int :=
  384

/-! ## Likelihoods -/

/-- A value for each of the Gaussians of a channel. -/
structure PerGaussian (Value : Type) where
  first : Value
  second : Value
deriving Repr, DecidableEq

/-- The value for a Gaussian. -/
def PerGaussian.at_ {Value : Type} (values : PerGaussian Value) (k : Fin kNumGaussians) : Value :=
  if k = 0 then values.first else values.second

/-- A loop over the Gaussians of a channel. -/
def forGaussians
    {Value : Type}
    (body : Fin kNumGaussians → Option Value) : Option (PerGaussian Value) := do
  let first ← body 0
  let second ← body 1
  return ⟨first, second⟩

/-- A mean and a standard deviation, in Q7. -/
structure Gaussian where
  mean : Int
  std : Int
deriving Repr, DecidableEq

/-- The Gaussians of a channel under both hypotheses. -/
structure ChannelModel where
  noise : PerGaussian Gaussian
  speech : PerGaussian Gaussian
deriving Repr, DecidableEq

/-- What the first loop of `GmmProbability` finds for a channel. -/
structure ChannelLikelihood where
  channel : Fin kNumChannels
  noise : PerGaussian GaussianValue
  speech : PerGaussian GaussianValue
  h0 : Int
  logLikelihoodRatio : Int
  ngprvec : PerGaussian Int
  sgprvec : PerGaussian Int
deriving Repr, DecidableEq

/-- The weighted probability of a Gaussian, in Q27. -/
def weighted (weight : Int) (value : GaussianValue) : Int :=
  int32 (weight * value.probability)

/-- `shifts_h0` and `shifts_h1` -/
def shiftsOf (test : Int) : Int :=
  if test = 0 then 31 else normW32 test

/-- The conditional probabilities of the Gaussians, from the probability of the first and that
of both in Q15. -/
def conditional
    (narrow : Narrowing)
    (probability h : Int)
    (unlikely : PerGaussian Int) : Option (PerGaussian Int) :=
  if 0 < h then do
    -- `(probability & 0xFFFFF000) << 2`
    let tmp1 := int32 ((probability - probability % 2 ^ 12) * 2 ^ 2)
    let first ← narrow .other (divW32W16 tmp1 h)
    let second ← narrow .other (16384 - first)
    return ⟨first, second⟩
  else return unlikely

/-- A pass of the first loop of `GmmProbability`. -/
def likelihood
    (narrow : Narrowing)
    (channel : Fin kNumChannels)
    (feature : Int)
    (model : ChannelModel) : Option ChannelLikelihood := do
  let noise ← forGaussians fun k =>
    gaussianProbability narrow feature (model.noise.at_ k).mean (model.noise.at_ k).std
  let speech ← forGaussians fun k =>
    gaussianProbability narrow feature (model.speech.at_ k).mean (model.speech.at_ k).std
  let noiseProbability := weighted (kNoiseDataWeights channel 0) noise.first
  let h0Test := int32 (noiseProbability + weighted (kNoiseDataWeights channel 1) noise.second)
  let speechProbability := weighted (kSpeechDataWeights channel 0) speech.first
  let h1Test := int32 (speechProbability + weighted (kSpeechDataWeights channel 1) speech.second)
  let h0 ← narrow .other (h0Test >>> (12 : Nat))
  let ngprvec ← conditional narrow noiseProbability h0 ⟨16384, 0⟩
  let h1 ← narrow .other (h1Test >>> (12 : Nat))
  let sgprvec ← conditional narrow speechProbability h1 ⟨0, 0⟩
  return {
    channel, noise, speech, h0, ngprvec, sgprvec
    logLikelihoodRatio := shiftsOf h0Test - shiftsOf h1Test }

/-- `vadflag` behind the decision. -/
def isSpeech
    (tables : ModeTables)
    (frameLength : Nat)
    (likelihoods : List ChannelLikelihood) : Bool :=
  let sumLogLikelihoodRatios :=
    (likelihoods.map fun found =>
      found.logLikelihoodRatio * kSpectrumWeight found.channel).sum
  (likelihoods.any fun found =>
      decide (tables.individual.at_ frameLength < found.logLikelihoodRatio * 2 ^ 2)) ||
    decide (tables.total.at_ frameLength ≤ sumLogLikelihoodRatios)

end ApmSdk.Vad
