import ApmSdk.LabelledPath
import ApmSdk.VadFeatures
import ApmSdk.VadMinimumBounds
import ApmSdk.VadModelLimits
import Mathlib.Data.Fin.VecNotation

namespace ApmSdk.Vad

/-!
# Runs of frames through the mixture models

Frame after frame the models of all channels stay sound, and no narrowing loses anything but at
the two places that are told apart.  A frame whose lowest bands are quiet shows what is lost, and
how far separation moves a mean.
-/

/-- A frame with features that `WebRtcVad_CalculateFeatures` gives, whatever the filters keep. -/
structure ProducedFrame where
  frame : VadFrame
  isLength : frame.frameLength = 80 ∨ frame.frameLength = 160 ∨ frame.frameLength = 240
  produced :
    ∃ self dataIn,
      dataIn.length = frame.frameLength ∧
        (calculateFeatures self dataIn).map (fun result => (result.1, result.2.1)) =
          some (List.ofFn frame.features, frame.totalPower)

/-- The instance behind a frame. -/
def VadInst.next (inst : VadInst) (given : ProducedFrame) : Option VadInst :=
  (gmmProbability narrowing inst given.frame).map Prod.snd

/-- A frame loses nothing but at the two places told apart, and leaves sound models. -/
def VadInst.KeepsModels (inst : VadInst) (given : ProducedFrame) : Prop :=
  ∃ vadflag target,
    gmmProbability narrowing inst given.frame = some (vadflag, target) ∧
      gmmProbability losslessElsewhere inst given.frame = some (vadflag, target) ∧
      ∀ channel, (target.models channel).Sound channel

/-- All that is asked of the models of a channel: the means are within the limits imposed on each of
them, the deviations are not below the smaller of the first one and the smallest, and ten times
those of speech are of 16 bits. -/
structure WithinLimits (channel : Fin kNumChannels) (model : ChannelModel) : Prop where
  noiseMean : ∀ k, NoiseMeanIn channel k (model.noise.at_ k).mean
  speechMean :
    ∀ k, kMinimumMean k ≤ (model.speech.at_ k).mean ∧
      (model.speech.at_ k).mean ≤ maxspeAt channel + 640
  noiseStd : ∀ k, min (kNoiseDataStds channel k) kMinStd ≤ (model.noise.at_ k).std
  speechStd :
    ∀ k, min (kSpeechDataStds channel k) kMinStd ≤ (model.speech.at_ k).std ∧
      (model.speech.at_ k).std * 10 < 2 ^ 15

/-- A frame loses nothing anywhere, and leaves all models within their limits. -/
def VadInst.KeepsAll (inst : VadInst) (given : ProducedFrame) : Prop :=
  ∃ vadflag target,
    gmmProbability narrowing inst given.frame = some (vadflag, target) ∧
      gmmProbability lossless inst given.frame = some (vadflag, target) ∧
      ∀ channel, WithinLimits channel (target.models channel)

theorem ProducedFrame.isFeature
    (given : ProducedFrame)
    (channel : Fin kNumChannels) :
    IsFeature (given.frame.features channel) := by
  obtain ⟨self, dataIn, isLength, produced⟩ := given.produced
  obtain ⟨⟨features, totalPower, next⟩, calculated, isFrame⟩ := Option.map_eq_some_iff.mp produced
  obtain ⟨rfl, -⟩ := Prod.mk.inj isFrame
  have lengths := given.isLength
  exact
    calculateFeatures_isFeature (by omega) calculated _
      (List.mem_ofFn.mpr ⟨channel, rfl⟩)

/-! ## The loop over the channels -/

/-- What the second loop of `GmmProbability` keeps: the channels behind it are updated, those ahead
of it are as they were. -/
structure LoopKept (inst : VadInst) (position : Nat) (loop : UpdateLoop) : Prop where
  updated :
    ∀ channel : Fin kNumChannels, channel.val < position → (loop.models channel).Sound channel
  ahead :
    ∀ channel : Fin kNumChannels,
      position ≤ channel.val → loop.models channel = inst.models channel
  maxspe : loop.maxspe = maxspeAt position
  counter : loop.minimums.frameCounter = inst.minimums.frameCounter
  isLength : loop.minimums.lowValues.length = 16 * kNumChannels + 1
  minimums :
    loop.minimums.Kept fun channel =>
      if channel.val < position then inst.minimums.frameCounter + 1
      else inst.minimums.frameCounter

/-- Counting for a channel counts for those up to it. -/
theorem update_counted
    (channel : Fin kNumChannels)
    (before after : Int) :
    Function.update (fun other : Fin kNumChannels =>
        if other.val < channel.val then after else before) channel after =
      fun other => if other.val < channel.val + 1 then after else before := by
  funext other
  by_cases same : other = channel
  · rw [same, Function.update_self, if_pos (Nat.lt_succ_self _)]
  · have differs : other.val ≠ channel.val := fun equal => same (Fin.ext equal)
    rw [Function.update_of_ne same]
    exact if_congr (by omega) rfl rfl

theorem maxspeAt_succ (channel : Fin kNumChannels) :
    kMaximumSpeech channel = maxspeAt (channel.val + 1) := by
  rw [maxspeAt, dif_pos channel.isLt]

section Frame

variable {inst : VadInst}
variable {loop : UpdateLoop}
variable {features : Fin kNumChannels → Int}
variable {found : ChannelLikelihood}

/-- A pass of the second loop updates its channel. -/
theorem updateChannel_agrees
    (sound : ∀ channel, (inst.models channel).Sound channel)
    (isFeature : ∀ channel, IsFeature (features channel))
    (likelihood : found.Sound (features found.channel) (inst.models found.channel))
    (kept : LoopKept inst found.channel loop)
    (vadflag : Bool) :
    Agrees (fun narrow => updateChannel narrow vadflag features loop found)
      (LoopKept inst (found.channel + 1)) := by
  obtain ⟨updated, ahead, maxspe, counter, isLength, minimums⟩ := kept
  have same := ahead found.channel le_rfl
  have current :
      (if found.channel.val < found.channel.val then inst.minimums.frameCounter + 1
        else inst.minimums.frameCounter) = loop.minimums.frameCounter := by
    rw [if_neg (Nat.lt_irrefl _), counter]
  refine
    .bind (.of_returns (minimums.findMinimum current (isFeature found.channel)))
      fun minimum ⟨isMinimum, sameCounter, sameLength, nextMinimums⟩ => ?_
  dsimp only
  rw [same]
  refine
    .bind
      (updateModel_agrees (sound found.channel) (isFeature found.channel) isMinimum
        ⟨rfl, likelihood⟩ maxspe vadflag)
      fun model isModel => ?_
  refine
    .pure ⟨fun channel behind => ?_, fun channel isAhead => ?_, maxspeAt_succ found.channel,
      sameCounter.trans counter, sameLength.trans isLength, ?_⟩
  · by_cases isChannel : channel = found.channel
    · subst isChannel
      dsimp only
      rw [Function.update_self]
      exact isModel
    · have differs : channel.val ≠ found.channel.val := fun equal => isChannel (Fin.ext equal)
      dsimp only
      rw [Function.update_of_ne isChannel]
      exact updated channel (by omega)
  · have isChannel : channel ≠ found.channel := by
      rintro rfl
      omega
    dsimp only
    rw [Function.update_of_ne isChannel]
    exact ahead channel (by omega)
  · rw [counter, update_counted] at nextMinimums
    exact nextMinimums

/-- The likelihoods of the channels are found in their order. -/
theorem likelihoods_agrees
    (sound : ∀ channel, (inst.models channel).Sound channel)
    (isFeature : ∀ channel, IsFeature (features channel)) :
    Agrees (fun narrow => likelihoods narrow inst.models features)
      (List.Forall₂
        (fun channel found =>
          found.channel = channel ∧ found.Sound (features channel) (inst.models channel))
        (List.finRange kNumChannels)) :=
  .mapM fun channel _ =>
    likelihood_agrees (isFeature channel) (sound channel).gaussians channel

/-- The loop over the channels updates all of them. -/
theorem updateChannels_agrees
    {likelihoods : List ChannelLikelihood}
    (sound : ∀ channel, (inst.models channel).Sound channel)
    (isFeature : ∀ channel, IsFeature (features channel))
    (areFound :
      List.Forall₂
        (fun channel found =>
          found.channel = channel ∧ found.Sound (features channel) (inst.models channel))
        (List.finRange kNumChannels) likelihoods)
    (start : LoopKept inst 0 loop)
    (vadflag : Bool) :
    Agrees
      (fun narrow => likelihoods.foldlM (updateChannel narrow vadflag features) loop)
      (LoopKept inst kNumChannels) := by
  have lengths := areFound.length_eq
  rw [List.length_finRange] at lengths
  rw [lengths]
  refine .foldlM (LoopKept inst) start fun state position inside kept => ?_
  obtain ⟨isChannel, likelihood⟩ :=
    areFound.get (by rw [List.length_finRange]; omega) inside
  have isPosition : (likelihoods[position]).channel.val = position := by
    have value := congrArg Fin.val isChannel
    simpa using value
  rw [List.get_eq_getElem, List.get_eq_getElem] at likelihood isChannel
  rw [← isChannel] at likelihood
  have next := updateChannel_agrees sound isFeature likelihood (by rwa [isPosition]) vadflag
  rwa [isPosition] at next

end Frame

/-! ## A frame -/

/-- The entries of the channels do not depend on what lies behind them. -/
theorem LowValueInst.block_congr
    {first second : LowValueInst}
    (same :
      first.lowValues.take (16 * kNumChannels) = second.lowValues.take (16 * kNumChannels))
    (channel : Fin kNumChannels) :
    first.block channel = second.block channel := by
  have inside := end_le channel
  have cut :
      ∀ inst : LowValueInst,
        inst.block channel =
          ((inst.lowValues.take (16 * kNumChannels)).drop (16 * channel)).take 16 := by
    intro inst
    rw [block, List.drop_take, List.take_take, Nat.min_eq_left (by omega)]
  rw [cut first, cut second, same]

/-- A counter of frames that wraps is not among the first ones. -/
theorem EntriesKept.wrapped
    {frameCounter : Int}
    {block : List LowValue}
    (kept : EntriesKept frameCounter block) :
    EntriesKept (int32 frameCounter) block := by
  obtain ⟨isLength, sorted, range, calls, few, recent, enough⟩ := kept
  refine ⟨isLength, sorted, range, calls, few, recent, enough.imp_right fun started => ?_⟩
  rw [started, int32_of_bounds (by omega) (by omega)]

namespace VadInst

/-- The models are sound, and the smallest features are kept for as many calls as there were
frames, whatever lies behind them. -/
structure Sound (inst : VadInst) : Prop where
  models : ∀ channel, (inst.models channel).Sound channel
  isLength : inst.minimums.lowValues.length = 16 * kNumChannels
  minimums :
    ∀ behind : LowValue,
      LowValueInst.Kept (fun _ => inst.minimums.frameCounter)
        { inst.minimums with lowValues := inst.minimums.lowValues ++ [behind] }

variable {inst : VadInst}

/-- Behind the loop the instance is sound again, with one frame more. -/
theorem sound_of_loop
    {loop : UpdateLoop}
    (kept : LoopKept inst kNumChannels loop) :
    VadInst.Sound
      { inst with
        models := loop.models
        minimums :=
          { loop.minimums with
            lowValues := loop.minimums.lowValues.take (16 * kNumChannels)
            frameCounter := int32 (loop.minimums.frameCounter + 1) } } := by
  obtain ⟨updated, -, -, counter, isLength, minimums⟩ := kept
  have cut : (loop.minimums.lowValues.take (16 * kNumChannels)).length = 16 * kNumChannels := by
    rw [List.length_take, isLength]
    exact Nat.min_eq_left (Nat.le_succ _)
  refine ⟨fun channel => updated channel channel.isLt, cut, fun behind => ?_⟩
  refine ⟨?_, minimums.means, minimums.smoothed, fun channel => ?_⟩
  · rw [List.length_append, cut]
    exact Nat.lt_succ_self _
  · have entries := minimums.entries channel
    rw [if_pos channel.isLt, ← counter] at entries
    rw [@LowValueInst.block_congr _ loop.minimums (List.take_left' cut) channel]
    exact entries.wrapped

theorem updateModels_agrees
    (sound : inst.Sound)
    (given : ProducedFrame) :
    Agrees (fun narrow => updateModels narrow inst given.frame)
      (fun found => found.2.Sound) := by
  refine .bind (likelihoods_agrees sound.models given.isFeature) fun found areFound => ?_
  dsimp only
  have start :
      LoopKept inst 0
        ⟨inst.models,
          { inst.minimums with
            lowValues := inst.minimums.lowValues ++ [given.frame.behind] }, 12800⟩ := by
    refine
      ⟨fun channel below => absurd below (Nat.not_lt_zero _), fun _ _ => rfl, rfl, rfl, ?_, ?_⟩
    · rw [List.length_append, sound.isLength, List.length_singleton]
    · simp only [Nat.not_lt_zero, if_false]
      exact sound.minimums given.frame.behind
  refine .bind (updateChannels_agrees sound.models given.isFeature areFound start _)
    fun loop kept => ?_
  exact .pure (sound_of_loop kept)

/-- A frame leaves a sound instance, in every narrowing that is admitted. -/
theorem gmmProbability_agrees
    (sound : inst.Sound)
    (given : ProducedFrame) :
    Agrees (fun narrow => gmmProbability narrow inst given.frame)
      (fun found => found.2.Sound) := by
  by_cases loud : kMinEnergy < given.frame.totalPower
  · simp only [gmmProbability, if_pos loud]
    exact
      .bind (updateModels_agrees sound given) fun _ ⟨models, isLength, minimums⟩ =>
        .pure ⟨models, isLength, minimums⟩
  · simp only [gmmProbability, if_neg loud]
    obtain ⟨models, isLength, minimums⟩ := sound
    exact .pure ⟨models, isLength, minimums⟩

theorem initial_model (channel : Fin kNumChannels) :
    (initCore.models channel).Sound channel := by
  constructor
  · revert channel; decide
  · revert channel; decide
  · revert channel; decide
  · revert channel; decide
  · unfold Spread; revert channel; decide
  · revert channel; decide
  · revert channel; decide

theorem initial_entries (behind : LowValue) (channel : Fin kNumChannels) :
    EntriesKept 0
      (LowValueInst.block
        { initLowValues with lowValues := initLowValues.lowValues ++ [behind] } channel) := by
  have same :=
    @LowValueInst.block_congr
      { initLowValues with lowValues := initLowValues.lowValues ++ [behind] } initLowValues
      (List.take_append_of_le_length (Nat.le_refl (16 * kNumChannels))) channel
  have block :
      ∀ channel, initLowValues.block channel = List.replicate 16 ⟨10000, 0⟩ := by
    decide
  rw [same, block]
  refine ⟨rfl, by decide, by decide, 0, by decide, fun since none_ => ?_, .inr rfl⟩
  exact none_.trans (Nat.zero_le _)

theorem sound_initCore : initCore.Sound := by
  have smoothed : ∀ mean ∈ initLowValues.meanValue, IsFeature mean := by
    unfold IsFeature
    decide
  exact
    ⟨initial_model, rfl, fun behind =>
      ⟨Nat.lt_succ_self _, rfl, smoothed, initial_entries behind⟩⟩

/-- A frame of a sound instance loses nothing but at the two places, and leaves a sound one. -/
theorem keepsModels_of_sound
    (sound : inst.Sound)
    (given : ProducedFrame) :
    inst.KeepsModels given := by
  obtain ⟨⟨vadflag, target⟩, agreed, isSound⟩ := gmmProbability_agrees sound given
  exact
    ⟨vadflag, target, agreed narrowing admitted_narrowing,
      agreed losslessElsewhere admitted_losslessElsewhere, isSound.models⟩

theorem sound_of_next
    {target : VadInst}
    (sound : inst.Sound)
    (given : ProducedFrame)
    (isNext : inst.next given = some target) :
    target.Sound := by
  obtain ⟨found, agreed, isSound⟩ := gmmProbability_agrees sound given
  have ran : gmmProbability narrowing inst given.frame = some found :=
    agreed narrowing admitted_narrowing
  rw [next, ran] at isNext
  rwa [← Option.some.inj isNext]

/-- In every run of frames from the initialisation each frame leaves sound models in all channels
and loses nothing but at the two places told apart. -/
theorem keepsModels_along (frames : List ProducedFrame) :
    AlongRun next KeepsModels initCore frames :=
  .of_invariant Sound
    (fun sound isNext => sound_of_next sound _ isNext)
    (fun sound => keepsModels_of_sound sound _)
    sound_initCore frames

/-- A quiet tone of 4000 Hz, for 10 ms. -/
def quietTone : ProducedFrame where
  frame :=
    { features := ![464, 415, 272, 176, 697, 284]
      totalPower := 1890
      frameLength := 80
      behind := ⟨0, 0⟩ }
  isLength := .inl rfl
  produced :=
    ⟨initFilterbank, (List.replicate 40 [10, -10]).flatten, rfl, by decide +kernel⟩

/-- In the first frame `delt` of a channel without noise likelihood is lost, and separation moves
a speech mean of the fifth channel above its limit of 12160. -/
theorem not_keepsAll_quietTone :
    ¬ AlongRun next KeepsAll initCore [quietTone] ∧
      (gmmProbability lossless initCore quietTone.frame).isNone = true ∧
      (initCore.next quietTone).map (fun target => (target.models 4).speech.first.mean) =
        some 13039 := by
  have lost : (gmmProbability lossless initCore quietTone.frame).isNone = true := by
    decide +kernel
  refine ⟨fun along => ?_, lost, by decide +kernel⟩
  obtain ⟨vadflag, target, -, returned, -⟩ := along.1
  rw [returned] at lost
  contradiction

end VadInst

end ApmSdk.Vad
