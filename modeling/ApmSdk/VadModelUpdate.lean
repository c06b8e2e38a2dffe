import ApmSdk.VadModels

namespace ApmSdk.Vad

/-!
# The update of the models of the voice detector

A frame of noise moves the noise model of each channel towards the features, a frame of speech
the speech model.  Long-term correction draws the noise means to the smallest features, models
that come too close are separated, and limits keep the means from drifting.
-/

/-! ## A Gaussian -/

/-- What the update of a Gaussian reads. -/
structure GaussianUpdate where
  channel : Fin kNumChannels
  k : Fin kNumGaussians
  feature : Int
  likelihood : ChannelLikelihood
  noise : Gaussian
  speech : Gaussian
  featureMinimum : Int
  -- `tmp1_s16`, the weighted noise mean in Q8
  noiseGlobalMean : Int
  maxspe : Int
deriving Repr, DecidableEq

namespace GaussianUpdate

variable (narrow : Narrowing) (update : GaussianUpdate)

/-- Where `delt` of a noise frame is narrowed. -/
def placeOfDelt : Place :=
  if 0 < update.likelihood.h0 then .other else .unlikelyDelt

/-- `nmk2` -/
def movedNoiseMean (vadflag : Bool) : Option Int :=
  if vadflag then return update.noise.mean
  else do
    let delta := (update.likelihood.noise.at_ update.k).delta
    let delt ←
      narrow update.placeOfDelt ((update.likelihood.ngprvec.at_ update.k * delta) >>> (11 : Nat))
    let tmp ← narrow .other ((delt * kNoiseUpdateConst) >>> (22 : Nat))
    narrow .other (update.noise.mean + tmp)

/-- `nmk3` within its limits. -/
def noiseMean (vadflag : Bool) : Option Int := do
  let nmk2 ← update.movedNoiseMean narrow vadflag
  let ndelt ← narrow .other (update.featureMinimum * 2 ^ 4 - update.noiseGlobalMean)
  let tmp ← narrow .other ((ndelt * kBackEta) >>> (9 : Nat))
  let nmk3 ← narrow .other (nmk2 + tmp)
  let lower ← narrow .other ((update.k + 5) * 2 ^ 7)
  let nmk3 := if nmk3 < lower then lower else nmk3
  let upper ← narrow .other ((72 + update.k - update.channel) * 2 ^ 7)
  return if upper < nmk3 then upper else nmk3

/-- `smk2` within its limits. -/
def speechMean : Option Int := do
  let delta := (update.likelihood.speech.at_ update.k).delta
  let delt ← narrow .other ((update.likelihood.sgprvec.at_ update.k * delta) >>> (11 : Nat))
  let tmp ← narrow .other ((delt * kSpeechUpdateConst) >>> (21 : Nat))
  let smk2 ← narrow .other (update.speech.mean + (tmp + 1) >>> (1 : Nat))
  let maxmu ← narrow .other (update.maxspe + 640)
  let smk2 := if smk2 < kMinimumMean update.k then kMinimumMean update.k else smk2
  return if maxmu < smk2 then maxmu else smk2

/-- A quotient, by way of its magnitude. -/
def dividedBy (den value : Int) : Option Int :=
  if 0 < value then narrow .other (divW32W16 value den)
  else do
    let tmp ← narrow .other (divW32W16 (int32 (-value)) den)
    narrow .other (-tmp)

/-- A standard deviation is at least the smallest. -/
def limitedStd (std : Int) : Int :=
  if std < kMinStd then kMinStd else std

/-- `ssk` behind a frame of speech. -/
def speechStd : Option Int := do
  let delta := (update.likelihood.speech.at_ update.k).delta
  let tmp ← narrow .other ((update.speech.mean + 4) >>> (3 : Nat))
  let tmp ← narrow .other (update.feature - tmp)
  let tmp2 := int32 ((delta * tmp) >>> (3 : Nat) - 4096)
  let tmp ← narrow .other (update.likelihood.sgprvec.at_ update.k >>> (2 : Nat))
  let tmp2 := int32 (tmp * tmp2) >>> (4 : Nat)
  let den ← narrow .divisor (update.speech.std * 10)
  let tmp ← dividedBy narrow den tmp2
  let tmp ← narrow .other (tmp + 128)
  let ssk ← narrow .other (update.speech.std + tmp >>> (8 : Nat))
  return limitedStd ssk

/-- `nsk` behind a frame of noise. -/
def noiseStd : Option Int := do
  let delta := (update.likelihood.noise.at_ update.k).delta
  let tmp ← narrow .other (update.feature - update.noise.mean >>> (3 : Nat))
  let tmp1 := int32 ((delta * tmp) >>> (3 : Nat) - 4096)
  let tmp ← narrow .other ((update.likelihood.ngprvec.at_ update.k + 2) >>> (2 : Nat))
  let tmp1 := int32 (tmp * tmp1) >>> (14 : Nat)
  let tmp ← dividedBy narrow update.noise.std tmp1
  let tmp ← narrow .other (tmp + 32)
  let nsk ← narrow .other (update.noise.std + tmp >>> (6 : Nat))
  return limitedStd nsk

/-- A pass of the loop over the Gaussians of a channel: that of noise and that of speech. -/
def apply (vadflag : Bool) : Option (Gaussian × Gaussian) := do
  let noiseMean ← update.noiseMean narrow vadflag
  if vadflag then do
    let speechMean ← update.speechMean narrow
    let speechStd ← update.speechStd narrow
    return ({ update.noise with mean := noiseMean }, ⟨speechMean, speechStd⟩)
  else do
    let noiseStd ← update.noiseStd narrow
    return (⟨noiseMean, noiseStd⟩, update.speech)

end GaussianUpdate

/-! ## A channel -/

section Channel

variable (narrow : Narrowing)

/-- The Gaussians with their means moved. -/
def moveMeans
    (data : PerGaussian Gaussian)
    (offset : Int) : Option (PerGaussian Gaussian) :=
  forGaussians fun k => do
    let mean ← narrow .other ((data.at_ k).mean + offset)
    return { data.at_ k with mean }

/-- `WeightedAverage`: the Gaussians and the average. -/
def weightedAverage
    (data : PerGaussian Gaussian)
    (offset : Int)
    (weights : Fin kNumGaussians → Int) : Option (PerGaussian Gaussian × Int) := do
  let data ← moveMeans narrow data offset
  return (data, int32 (data.first.mean * weights 0 + data.second.mean * weights 1))

/-- A channel with its weighted means. -/
structure WeightedModel where
  model : ChannelModel
  noiseGlobalMean : Int
  speechGlobalMean : Int
deriving Repr, DecidableEq

/-- Separation of models that are too close. -/
def separateModels
    (channel : Fin kNumChannels)
    (model : ChannelModel) : Option WeightedModel := do
  let noise ← weightedAverage narrow model.noise 0 (kNoiseDataWeights channel)
  let speech ← weightedAverage narrow model.speech 0 (kSpeechDataWeights channel)
  let speechMean ← narrow .other (speech.2 >>> (9 : Nat))
  let noiseMean ← narrow .other (noise.2 >>> (9 : Nat))
  let diff ← narrow .other (speechMean - noiseMean)
  if diff < kMinimumDifference channel then do
    let tmp ← narrow .other (kMinimumDifference channel - diff)
    let tmp1 ← narrow .other ((13 * tmp) >>> (2 : Nat))
    let tmp2 ← narrow .other ((3 * tmp) >>> (2 : Nat))
    let speech ← weightedAverage narrow speech.1 tmp1 (kSpeechDataWeights channel)
    let down ← narrow .other (-tmp2)
    let noise ← weightedAverage narrow noise.1 down (kNoiseDataWeights channel)
    return ⟨⟨noise.1, speech.1⟩, noise.2, speech.2⟩
  else return ⟨⟨noise.1, speech.1⟩, noise.2, speech.2⟩

/-- The upper limit of the weighted mean of a model. -/
def limitModel
    (data : PerGaussian Gaussian)
    (globalMean maximum : Int) : Option (PerGaussian Gaussian) := do
  let tmp2 ← narrow .other (globalMean >>> (7 : Nat))
  if maximum < tmp2 then do
    let tmp2 ← narrow .other (tmp2 - maximum)
    moveMeans narrow data (-tmp2)
  else return data

/-- What a pass of the second loop of `GmmProbability` does to the models of its channel. -/
def updateModel
    (vadflag : Bool)
    (likelihood : ChannelLikelihood)
    (feature featureMinimum maxspe : Int)
    (model : ChannelModel) : Option ChannelModel := do
  let channel := likelihood.channel
  let noise ← weightedAverage narrow model.noise 0 (kNoiseDataWeights channel)
  let noiseGlobalMean ← narrow .other (noise.2 >>> (6 : Nat))
  let updated ← forGaussians fun k =>
    GaussianUpdate.apply narrow
      { channel, k, feature, likelihood, featureMinimum, noiseGlobalMean, maxspe
        noise := noise.1.at_ k
        speech := model.speech.at_ k }
      vadflag
  let separated ← separateModels narrow channel
    ⟨⟨updated.first.1, updated.second.1⟩, ⟨updated.first.2, updated.second.2⟩⟩
  let speech ← limitModel narrow separated.model.speech separated.speechGlobalMean
    (kMaximumSpeech channel)
  let noise ← limitModel narrow separated.model.noise separated.noiseGlobalMean
    (kMaximumNoise channel)
  return ⟨noise, speech⟩

end Channel

/-! ## A frame -/

/-- What `GmmProbability` uses of the instance. -/
structure VadInst where
  models : Fin kNumChannels → ChannelModel
  minimums : LowValueInst
  hangover : HangoverInst

/-- A frame as `GmmProbability` is handed it, and what lies behind `index_vector` and
`low_value_vector`. -/
structure VadFrame where
  features : Fin kNumChannels → Int
  totalPower : Int
  frameLength : Nat
  behind : LowValue

/-- What the second loop of `GmmProbability` carries from channel to channel. -/
structure UpdateLoop where
  models : Fin kNumChannels → ChannelModel
  minimums : LowValueInst
  maxspe : Int

section Frame

variable (narrow : Narrowing)

/-- A pass of the second loop of `GmmProbability`. -/
def updateChannel
    (vadflag : Bool)
    (features : Fin kNumChannels → Int)
    (loop : UpdateLoop)
    (likelihood : ChannelLikelihood) : Option UpdateLoop := do
  let channel := likelihood.channel
  let (featureMinimum, minimums) ← findMinimum loop.minimums (features channel) channel
  let model ←
    updateModel narrow vadflag likelihood (features channel) featureMinimum loop.maxspe
      (loop.models channel)
  return {
    models := Function.update loop.models channel model
    minimums
    maxspe := kMaximumSpeech channel }

/-- The likelihoods of all channels. -/
def likelihoods
    (models : Fin kNumChannels → ChannelModel)
    (features : Fin kNumChannels → Int) : Option (List ChannelLikelihood) :=
  (List.finRange kNumChannels).mapM fun channel =>
    likelihood narrow channel (features channel) (models channel)

/-- The part of `GmmProbability` for a frame with enough power: `vadflag` and the instance. -/
def updateModels
    (inst : VadInst)
    (frame : VadFrame) : Option (Bool × VadInst) := do
  let found ← likelihoods narrow inst.models frame.features
  let vadflag := isSpeech inst.hangover.tables frame.frameLength found
  -- a removal in the last channel reads an entry behind the arrays
  let memory := { inst.minimums with lowValues := inst.minimums.lowValues ++ [frame.behind] }
  let loop ←
    found.foldlM (updateChannel narrow vadflag frame.features) ⟨inst.models, memory, 12800⟩
  return (vadflag,
    { inst with
      models := loop.models
      minimums :=
        { loop.minimums with
          lowValues := loop.minimums.lowValues.take (16 * kNumChannels)
          frameCounter := int32 (loop.minimums.frameCounter + 1) } })

/-- `GmmProbability`: the decision and the instance behind it. -/
def gmmProbability
    (inst : VadInst)
    (frame : VadFrame) : Option (Int × VadInst) := do
  let (vadflag, inst) ←
    if kMinEnergy < frame.totalPower then updateModels narrow inst frame
    else some (false, inst)
  let (vadflag, hangover) := inst.hangover.smooth frame.frameLength vadflag
  return (vadflag, { inst with hangover })

end Frame

/-- `WebRtcVad_InitCore` -/
def initCore : VadInst where
  models channel :=
    { noise := ⟨⟨kNoiseDataMeans channel 0, kNoiseDataStds channel 0⟩,
        ⟨kNoiseDataMeans channel 1, kNoiseDataStds channel 1⟩⟩
      speech := ⟨⟨kSpeechDataMeans channel 0, kSpeechDataStds channel 0⟩,
        ⟨kSpeechDataMeans channel 1, kSpeechDataStds channel 1⟩⟩ }
  minimums := initLowValues
  hangover := .initCore

end ApmSdk.Vad
