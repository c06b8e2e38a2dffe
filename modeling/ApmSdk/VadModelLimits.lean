import ApmSdk.VadModelBounds

namespace ApmSdk.Vad

/-!
# What the models of a channel keep

The limits are imposed on each mean before the models are separated, and on the weighted means
behind it.  Separation moves both means of a model alike, so that how far they are apart keeps
them within 16 bits.
-/

/-- What the models of a channel keep from update to update. -/
structure ChannelModel.Sound (channel : Fin kNumChannels) (model : ChannelModel) : Prop where
  noiseMean :
    ∀ k, -1552 ≤ (model.noise.at_ k).mean ∧
      (model.noise.at_ k).mean ≤ (72 + k - channel) * 2 ^ 7
  noiseGlobal :
    41 * 2 ^ 7 ≤ weightedSum (kNoiseDataWeights channel) model.noise ∧
      weightedSum (kNoiseDataWeights channel) model.noise < (kMaximumNoise channel + 1) * 2 ^ 7
  noiseStd :
    ∀ k, min (kNoiseDataStds channel k) kMinStd ≤ (model.noise.at_ k).std ∧
      (model.noise.at_ k).std ≤ 4101
  speechMean : ∀ k, kMinimumMean k ≤ (model.speech.at_ k).mean
  speechSpread : Spread (maxspeAt channel) model.speech
  speechGlobal :
    weightedSum (kSpeechDataWeights channel) model.speech < (kMaximumSpeech channel + 1) * 2 ^ 7
  speechStd : ∀ k, kMinStd ≤ (model.speech.at_ k).std ∧ (model.speech.at_ k).std ≤ 3291

/-- The tables of a channel. -/
structure TablesOf (channel : Fin kNumChannels) : Prop where
  maximumNoise : kMaximumNoise channel = (72 - channel) * 2 ^ 7
  difference : 544 ≤ kMinimumDifference channel ∧ kMinimumDifference channel ≤ 576
  maximumSpeech : 11392 ≤ kMaximumSpeech channel ∧ kMaximumSpeech channel ≤ 11520
  maxspe : 11392 ≤ maxspeAt channel ∧ maxspeAt channel ≤ 12800
  spread : ∀ k, maxspeAt channel * kSpeechDataWeights channel k ≤ 8000 * 2 ^ 7
  noiseStd : ∀ k, 378 ≤ min (kNoiseDataStds channel k) kMinStd

theorem tablesOf (channel : Fin kNumChannels) : TablesOf channel := by
  constructor <;> revert channel <;> decide

theorem kMinimumMean_bounds (k : Fin kNumGaussians) :
    640 ≤ kMinimumMean k ∧ kMinimumMean k ≤ 768 := by
  revert k
  decide

section Sound

variable {channel : Fin kNumChannels}
variable {model : ChannelModel}

theorem channel_bounds (channel : Fin kNumChannels) :
    0 ≤ (channel.val : Int) ∧ (channel.val : Int) < 6 :=
  ⟨Int.natCast_nonneg _, by exact_mod_cast channel.isLt⟩

theorem gaussian_bounds (k : Fin kNumGaussians) :
    0 ≤ (k.val : Int) ∧ (k.val : Int) < 2 :=
  ⟨Int.natCast_nonneg _, by exact_mod_cast k.isLt⟩

/-- The means of speech are not far from their weighted one. -/
theorem ChannelModel.Sound.speechMean_le
    (sound : model.Sound channel)
    (k : Fin kNumGaussians) :
    (model.speech.at_ k).mean ≤ 19521 := by
  have near :=
    (mean_of_spread (isMixture_speech channel) sound.speechSpread (tablesOf channel).spread k).2
  have global := sound.speechGlobal
  have maximum := (tablesOf channel).maximumSpeech
  omega

theorem ChannelModel.Sound.gaussians (sound : model.Sound channel) : model.Gaussians where
  noise k := by
    have mean := sound.noiseMean k
    have std := sound.noiseStd k
    have least := (tablesOf channel).noiseStd k
    have := channel_bounds channel
    have := gaussian_bounds k
    exact ⟨by omega, by omega⟩
  speech k := by
    have mean := sound.speechMean k
    have least := kMinimumMean_bounds k
    have notAbove := sound.speechMean_le k
    have std := sound.speechStd k
    unfold kMinStd at std
    exact ⟨by omega, by omega⟩

end Sound

/-! ## Moving means -/

section Moves

variable {data : PerGaussian Gaussian}
variable {offset : Int}

/-- All moved means fit 16 bits. -/
def MovesFit (data : PerGaussian Gaussian) (offset : Int) : Prop :=
  ∀ k, -2 ^ 15 ≤ (data.at_ k).mean + offset ∧ (data.at_ k).mean + offset < 2 ^ 15

theorem moveMeans_agrees (fits : MovesFit data offset) :
    Agrees (fun narrow => moveMeans narrow data offset) (· = data.moved offset) := by
  have each :
      ∀ k, Agrees
        (fun narrow => do
          let mean ← narrow .other ((data.at_ k).mean + offset)
          return { data.at_ k with mean })
        (· = ⟨(data.at_ k).mean + offset, (data.at_ k).std⟩) :=
    fun k => .kept (fits k).1 (fits k).2 (.pure rfl)
  refine (forGaussians_agrees each).imp fun moved isMoved => ?_
  have first := isMoved 0
  have second := isMoved 1
  cases moved with
  | mk movedFirst movedSecond =>
      dsimp only [PerGaussian.at_, PerGaussian.moved] at first second ⊢
      rw [if_pos rfl, if_pos rfl] at first
      rw [if_neg (by decide), if_neg (by decide)] at second
      rw [first, second]

theorem weightedAverage_agrees
    {weights : Fin kNumGaussians → Int}
    (mixture : IsMixture weights)
    (fits : MovesFit data offset) :
    Agrees (fun narrow => weightedAverage narrow data offset weights)
      (· = (data.moved offset, weightedSum weights data + offset * 2 ^ 7)) := by
  refine .bind (moveMeans_agrees fits) fun moved isMoved => ?_
  subst isMoved
  have lower : -2 ^ 15 * 2 ^ 7 ≤ weightedSum weights (data.moved offset) :=
    le_weightedSum mixture (Fin.forall_fin_two.mpr ⟨(fits 0).1, (fits 1).1⟩)
  have upper : weightedSum weights (data.moved offset) ≤ 2 ^ 15 * 2 ^ 7 :=
    weightedSum_le mixture (Fin.forall_fin_two.mpr ⟨(fits 0).2.le, (fits 1).2.le⟩)
  rw [← weightedSum_moved mixture]
  refine .pure (congrArg (Prod.mk _) ?_)
  exact @int32_of_bounds (weightedSum weights (data.moved offset)) (by omega) (by omega)

/-- Without an offset the average is taken of the Gaussians as they are. -/
theorem weightedAverage_zero_agrees
    {weights : Fin kNumGaussians → Int}
    (mixture : IsMixture weights)
    (fits : ∀ k, -2 ^ 15 ≤ (data.at_ k).mean ∧ (data.at_ k).mean < 2 ^ 15) :
    Agrees (fun narrow => weightedAverage narrow data 0 weights)
      (· = (data, weightedSum weights data)) := by
  have movesFit : MovesFit data 0 := by
    intro k
    rw [Int.add_zero]
    exact fits k
  have average := weightedAverage_agrees mixture movesFit
  rwa [PerGaussian.moved_zero, Int.zero_mul, Int.add_zero] at average

/-- A weighted mean up to a limit, and what is left when it is above it. -/
theorem limitModel_agrees
    {weights : Fin kNumGaussians → Int}
    {maximum : Int}
    (range : 0 ≤ maximum ∧ maximum < 2 ^ 15)
    (fits : -2 ^ 15 * 2 ^ 7 ≤ weightedSum weights data ∧
      weightedSum weights data < 2 ^ 15 * 2 ^ 7)
    (means : ∀ down, 0 ≤ down →
      down * 2 ^ 7 + maximum * 2 ^ 7 ≤ weightedSum weights data → MovesFit data (-down)) :
    Agrees (fun narrow => limitModel narrow data (weightedSum weights data) maximum)
      (fun limited => ∃ down, limited = data.moved (-down) ∧ 0 ≤ down ∧
        weightedSum weights data - down * 2 ^ 7 < (maximum + 1) * 2 ^ 7 ∧
        (down = 0 ∨ maximum * 2 ^ 7 ≤ weightedSum weights data - down * 2 ^ 7)) := by
  simp only [limitModel, Int.shiftRight_eq_div_pow, Nat.cast_pow, Nat.cast_ofNat]
  refine .kept (by omega) (by omega) ?_
  by_cases above : maximum < weightedSum weights data / 2 ^ 7
  · simp only [if_pos above]
    refine .kept (by omega) (by omega) ?_
    refine (moveMeans_agrees (means _ (by omega) (by omega))).imp fun limited isLimited => ?_
    exact ⟨_, isLimited, by omega, by omega, by omega⟩
  · simp only [if_neg above]
    exact .pure ⟨0, data.moved_zero.symm, by omega, by omega, .inl rfl⟩

end Moves

/-! ## Separation -/

/-- The models of a channel behind the loop over the Gaussians. -/
structure ChannelModel.Limited (channel : Fin kNumChannels) (model : ChannelModel) : Prop where
  noiseMean : ∀ k, NoiseMeanIn channel k (model.noise.at_ k).mean
  speechMean : ∀ k, kMinimumMean k ≤ (model.speech.at_ k).mean
  notFar : ∀ k, (model.speech.at_ k).mean ≤ 19521
  speechGlobal :
    weightedSum (kSpeechDataWeights channel) model.speech ≤ 13440 * 2 ^ 7

/-- Separation moves the noise means down and the speech means up. -/
structure MovesApart
    (channel : Fin kNumChannels)
    (model : ChannelModel)
    (up down : Int)
    (separated : WeightedModel) : Prop where
  upRange : 0 ≤ up ∧ up ≤ 8944
  downRange : 0 ≤ down ∧ down ≤ 2064
  noise : separated.model.noise = model.noise.moved (-down)
  speech : separated.model.speech = model.speech.moved up
  noiseGlobal :
    separated.noiseGlobalMean =
      weightedSum (kNoiseDataWeights channel) model.noise + -down * 2 ^ 7
  speechGlobal :
    separated.speechGlobalMean =
      weightedSum (kSpeechDataWeights channel) model.speech + up * 2 ^ 7
  notLow : 41 * 2 ^ 7 ≤ separated.noiseGlobalMean

section Separation

variable {channel : Fin kNumChannels}
variable {model : ChannelModel}

theorem ChannelModel.Limited.noiseRange
    (limited : model.Limited channel)
    (k : Fin kNumGaussians) :
    640 ≤ (model.noise.at_ k).mean ∧ (model.noise.at_ k).mean ≤ (73 - channel) * 2 ^ 7 := by
  obtain ⟨lower, upper⟩ := limited.noiseMean k
  have := gaussian_bounds k
  constructor <;> omega

theorem ChannelModel.Limited.noiseGlobal
    (limited : model.Limited channel) :
    640 * 2 ^ 7 ≤ weightedSum (kNoiseDataWeights channel) model.noise ∧
      weightedSum (kNoiseDataWeights channel) model.noise ≤ (73 - channel) * 2 ^ 7 * 2 ^ 7 :=
  ⟨le_weightedSum (isMixture_noise channel) fun k => (limited.noiseRange k).1,
    weightedSum_le (isMixture_noise channel) fun k => (limited.noiseRange k).2⟩

theorem ChannelModel.Limited.speechRange
    (limited : model.Limited channel) :
    640 * 2 ^ 7 ≤ weightedSum (kSpeechDataWeights channel) model.speech :=
  le_weightedSum (isMixture_speech channel) fun k =>
    Int.le_trans (kMinimumMean_bounds k).1 (limited.speechMean k)

theorem separateModels_agrees (limited : model.Limited channel) :
    Agrees (fun narrow => separateModels narrow channel model)
      (fun separated => ∃ up down, MovesApart channel model up down separated) := by
  obtain ⟨noiseLow, noiseHigh⟩ := limited.noiseGlobal
  have speechLow := limited.speechRange
  have speechHigh := limited.speechGlobal
  obtain ⟨differenceLow, differenceHigh⟩ := (tablesOf channel).difference
  obtain ⟨channelLow, channelHigh⟩ := channel_bounds channel
  have noiseFits :
      ∀ down, 0 ≤ down → down ≤ 2064 → MovesFit model.noise (-down) := by
    intro down nonneg small k
    have range := limited.noiseRange k
    omega
  have speechFits : ∀ up, 0 ≤ up → up ≤ 8944 → MovesFit model.speech up := by
    intro up nonneg small k
    have low := limited.speechMean k
    have least := kMinimumMean_bounds k
    have high := limited.notFar k
    omega
  refine .bind (weightedAverage_zero_agrees (isMixture_noise channel) fun k => ?_)
    fun noise isNoise => ?_
  · have range := limited.noiseRange k
    omega
  refine .bind (weightedAverage_zero_agrees (isMixture_speech channel) fun k => ?_)
    fun speech isSpeech => ?_
  · have low := limited.speechMean k
    have least := kMinimumMean_bounds k
    have high := limited.notFar k
    omega
  subst isNoise isSpeech
  simp only [Int.shiftRight_eq_div_pow, Nat.cast_pow, Nat.cast_ofNat]
  generalize isNoise : weightedSum (kNoiseDataWeights channel) model.noise = noise at *
  generalize isSpeech : weightedSum (kSpeechDataWeights channel) model.speech = speech at *
  refine Agrees.kept (by omega) (by omega) ?_
  refine Agrees.kept (by omega) (by omega) ?_
  refine Agrees.kept (by omega) (by omega) ?_
  by_cases close : speech / 2 ^ 9 - noise / 2 ^ 9 < kMinimumDifference channel
  · simp only [if_pos close]
    generalize isMissing :
      kMinimumDifference channel - (speech / 2 ^ 9 - noise / 2 ^ 9) = missing at *
    refine Agrees.kept (by omega) (by omega) ?_
    refine Agrees.kept (by omega) (by omega) ?_
    refine Agrees.kept (by omega) (by omega) ?_
    refine .bind (weightedAverage_agrees (isMixture_speech channel)
      (speechFits (13 * missing / 2 ^ 2) (by omega) (by omega))) fun upwards isUpwards => ?_
    refine Agrees.kept (by omega) (by omega) ?_
    refine .bind (weightedAverage_agrees (isMixture_noise channel)
      (noiseFits (3 * missing / 2 ^ 2) (by omega) (by omega))) fun downwards isDownwards => ?_
    subst isUpwards isDownwards
    rw [isNoise, isSpeech]
    refine .pure ⟨13 * missing / 2 ^ 2, 3 * missing / 2 ^ 2, ?_⟩
    refine ⟨by omega, by omega, rfl, rfl, ?_, ?_, ?_⟩
    · rw [isNoise]
    · rw [isSpeech]
    · dsimp only
      omega
  · simp only [if_neg close]
    refine .pure ⟨0, 0, by decide, by decide, ?_, ?_, ?_, ?_, ?_⟩
    · exact (PerGaussian.moved_zero _).symm
    · exact (PerGaussian.moved_zero _).symm
    · rw [isNoise]
      exact (Int.add_zero _).symm
    · rw [isSpeech]
      exact (Int.add_zero _).symm
    · dsimp only
      omega

end Separation

/-! ## An update -/

theorem PerGaussian.moved_at
    (data : PerGaussian Gaussian)
    (offset : Int)
    (k : Fin kNumGaussians) :
    (data.moved offset).at_ k = ⟨(data.at_ k).mean + offset, (data.at_ k).std⟩ := by
  revert k
  exact Fin.forall_fin_two.mpr ⟨rfl, rfl⟩

theorem Spread.moved
    {bound : Int}
    {data : PerGaussian Gaussian}
    (spread : Spread bound data)
    (offset : Int) :
    Spread bound (data.moved offset) := by
  unfold Spread PerGaussian.moved at *
  dsimp only
  omega

/-- What the loop over the Gaussians leaves of a sound model. -/
structure ChannelModel.Updated (channel : Fin kNumChannels) (model : ChannelModel) : Prop where
  limited : model.Limited channel
  noiseStd :
    ∀ k, min (kNoiseDataStds channel k) kMinStd ≤ (model.noise.at_ k).std ∧
      (model.noise.at_ k).std ≤ 4101
  speechSpread : Spread (maxspeAt channel) model.speech
  speechStd : ∀ k, kMinStd ≤ (model.speech.at_ k).std ∧ (model.speech.at_ k).std ≤ 3291

/-- The Gaussians of a channel behind the passes for each of them. -/
def updatedModel (updated : PerGaussian (Gaussian × Gaussian)) : ChannelModel :=
  ⟨⟨updated.first.1, updated.second.1⟩, ⟨updated.first.2, updated.second.2⟩⟩

theorem updatedModel_at
    (updated : PerGaussian (Gaussian × Gaussian))
    (k : Fin kNumGaussians) :
    (updatedModel updated).noise.at_ k = (updated.at_ k).1 ∧
      (updatedModel updated).speech.at_ k = (updated.at_ k).2 := by
  revert k
  exact Fin.forall_fin_two.mpr ⟨⟨rfl, rfl⟩, rfl, rfl⟩

section Update

variable {channel : Fin kNumChannels}
variable {model : ChannelModel}
variable {update : Fin kNumGaussians → GaussianUpdate}

/-- The updates of both Gaussians of a channel. -/
structure UpdatesOf
    (channel : Fin kNumChannels)
    (model : ChannelModel)
    (update : Fin kNumGaussians → GaussianUpdate) : Prop where
  sound : ∀ k, (update k).Sound model
  isChannel : ∀ k, (update k).channel = channel
  isGaussian : ∀ k, (update k).k = k
  isMaxspe : ∀ k, (update k).maxspe = maxspeAt channel

/-- In a frame of speech the speech means stay within the limits that are imposed on each. -/
theorem speech_of_leaves
    (updates : UpdatesOf channel model update)
    {updated : PerGaussian (Gaussian × Gaussian)}
    (leaves : ∀ k, (update k).Leaves true (updated.at_ k))
    (k : Fin kNumGaussians) :
    kMinimumMean k ≤ ((updatedModel updated).speech.at_ k).mean ∧
      ((updatedModel updated).speech.at_ k).mean ≤ maxspeAt channel + 640 := by
  have range := (leaves k).speechMean rfl
  rwa [updates.isGaussian, updates.isMaxspe, ← (updatedModel_at updated k).2] at range

/-- In a frame of noise the speech model stays as it is. -/
theorem speech_of_silent
    (updates : UpdatesOf channel model update)
    {updated : PerGaussian (Gaussian × Gaussian)}
    (leaves : ∀ k, (update k).Leaves false (updated.at_ k)) :
    (updatedModel updated).speech = model.speech := by
  have same : ∀ k, (updated.at_ k).2 = model.speech.at_ k := by
    intro k
    rw [(leaves k).speech rfl, (updates.sound k).isSpeech, updates.isGaussian]
  have first : updated.first.2 = model.speech.first := same 0
  have second : updated.second.2 = model.speech.second := same 1
  unfold updatedModel
  rw [first, second]

theorem updated_of_leaves
    (sound : model.Sound channel)
    (updates : UpdatesOf channel model update)
    {vadflag : Bool}
    {updated : PerGaussian (Gaussian × Gaussian)}
    (leaves : ∀ k, (update k).Leaves vadflag (updated.at_ k)) :
    (updatedModel updated).Updated channel := by
  have noiseMean : ∀ k, NoiseMeanIn channel k ((updatedModel updated).noise.at_ k).mean := by
    intro k
    have mean := (leaves k).noiseMean
    rwa [updates.isChannel, updates.isGaussian, ← (updatedModel_at updated k).1] at mean
  have noiseStd :
      ∀ k, min (kNoiseDataStds channel k) kMinStd ≤ ((updatedModel updated).noise.at_ k).std ∧
        ((updatedModel updated).noise.at_ k).std ≤ 4101 := by
    intro k
    have std := (leaves k).noiseStd
    rw [(updates.sound k).isNoise, updates.isGaussian, ← (updatedModel_at updated k).1] at std
    have before := (sound.noiseStd k).1
    omega
  have speechStd :
      ∀ k, kMinStd ≤ ((updatedModel updated).speech.at_ k).std ∧
        ((updatedModel updated).speech.at_ k).std ≤ 3291 := by
    intro k
    have std := (leaves k).speechStd
    rwa [← (updatedModel_at updated k).2] at std
  have maxspe := (tablesOf channel).maxspe
  have maximum := (tablesOf channel).maximumSpeech
  cases vadflag with
  | true =>
      have speech := speech_of_leaves updates leaves
      have global :
          weightedSum (kSpeechDataWeights channel) (updatedModel updated).speech ≤
            (maxspeAt channel + 640) * 2 ^ 7 :=
        weightedSum_le (isMixture_speech channel) fun k => (speech k).2
      have least := kMinimumMean_bounds 0
      have otherLeast := kMinimumMean_bounds 1
      have first := speech 0
      have second := speech 1
      refine ⟨⟨noiseMean, fun k => (speech k).1, fun k => ?_, by omega⟩, noiseStd, ?_, speechStd⟩
      · have mean := speech k
        omega
      · unfold Spread
        dsimp only [PerGaussian.at_] at first second
        rw [if_pos rfl] at first
        rw [if_neg (by decide)] at second
        omega
  | false =>
      have same := speech_of_silent updates leaves
      have global := sound.speechGlobal
      rw [same] at speechStd
      constructor
      · refine ⟨noiseMean, ?_, ?_, ?_⟩
        · rw [same]
          exact sound.speechMean
        · rw [same]
          exact sound.speechMean_le
        · rw [same]
          omega
      · exact noiseStd
      · rw [same]
        exact sound.speechSpread
      · rw [same]
        exact speechStd

/-- Behind separation and the limits of the weighted means the models are sound. -/
theorem sound_of_moves
    (updated : model.Updated channel)
    {up down speechDown noiseDown : Int}
    (upRange : 0 ≤ up)
    (downRange : 0 ≤ down ∧ down ≤ 2064)
    (noiseDownRange : 0 ≤ noiseDown)
    (isNoise :
      weightedSum (kNoiseDataWeights channel) model.noise + -down * 2 ^ 7 - noiseDown * 2 ^ 7 <
        (kMaximumNoise channel + 1) * 2 ^ 7)
    (noiseLow :
      41 * 2 ^ 7 ≤ weightedSum (kNoiseDataWeights channel) model.noise + -down * 2 ^ 7)
    (noiseEnd :
      noiseDown = 0 ∨ kMaximumNoise channel * 2 ^ 7 ≤
        weightedSum (kNoiseDataWeights channel) model.noise + -down * 2 ^ 7 - noiseDown * 2 ^ 7)
    (isSpeech :
      weightedSum (kSpeechDataWeights channel) model.speech + up * 2 ^ 7 - speechDown * 2 ^ 7 <
        (kMaximumSpeech channel + 1) * 2 ^ 7)
    (speechEnd :
      speechDown = 0 ∨ kMaximumSpeech channel * 2 ^ 7 ≤
        weightedSum (kSpeechDataWeights channel) model.speech + up * 2 ^ 7 -
          speechDown * 2 ^ 7) :
    ChannelModel.Sound channel
      ⟨(model.noise.moved (-down)).moved (-noiseDown),
        (model.speech.moved up).moved (-speechDown)⟩ := by
  obtain ⟨limited, noiseStd, speechSpread, speechStd⟩ := updated
  have tables := tablesOf channel
  have maximumNoise := tables.maximumNoise
  have maximumSpeech := tables.maximumSpeech
  have noiseHigh := limited.noiseGlobal.2
  have spread := (speechSpread.moved up).moved (-speechDown)
  have noiseGlobal :
      weightedSum (kNoiseDataWeights channel) ((model.noise.moved (-down)).moved (-noiseDown)) =
        weightedSum (kNoiseDataWeights channel) model.noise + -down * 2 ^ 7 -
          noiseDown * 2 ^ 7 := by
    rw [weightedSum_moved (isMixture_noise channel), weightedSum_moved (isMixture_noise channel)]
    omega
  have speechGlobal :
      weightedSum (kSpeechDataWeights channel) ((model.speech.moved up).moved (-speechDown)) =
        weightedSum (kSpeechDataWeights channel) model.speech + up * 2 ^ 7 -
          speechDown * 2 ^ 7 := by
    rw [weightedSum_moved (isMixture_speech channel),
      weightedSum_moved (isMixture_speech channel)]
    omega
  have channelRange := channel_bounds channel
  constructor
  · intro k
    obtain ⟨low, -⟩ := limited.noiseRange k
    have high := (limited.noiseMean k).upper
    dsimp only
    rw [PerGaussian.moved_at, PerGaussian.moved_at]
    dsimp only
    omega
  · dsimp only
    rw [noiseGlobal]
    omega
  · intro k
    dsimp only
    rw [PerGaussian.moved_at, PerGaussian.moved_at]
    exact noiseStd k
  · intro k
    have near := (mean_of_spread (isMixture_speech channel) spread tables.spread k).1
    have mean := limited.speechMean k
    have least := kMinimumMean_bounds k
    rw [speechGlobal] at near
    dsimp only
    rw [PerGaussian.moved_at, PerGaussian.moved_at] at near ⊢
    dsimp only at near ⊢
    omega
  · exact spread
  · dsimp only
    rw [speechGlobal]
    exact isSpeech
  · intro k
    dsimp only
    rw [PerGaussian.moved_at, PerGaussian.moved_at]
    exact speechStd k

/-- Separation and the limits of the weighted means keep the models sound. -/
theorem separated_agrees (updated : model.Updated channel) :
    Agrees
      (fun narrow => do
        let separated ← separateModels narrow channel model
        let speech ← limitModel narrow separated.model.speech separated.speechGlobalMean
          (kMaximumSpeech channel)
        let noise ← limitModel narrow separated.model.noise separated.noiseGlobalMean
          (kMaximumNoise channel)
        return ⟨noise, speech⟩)
      (ChannelModel.Sound channel) := by
  have limited := updated.limited
  have tables := tablesOf channel
  have maximumNoise := tables.maximumNoise
  have maximumSpeech := tables.maximumSpeech
  obtain ⟨noiseLow, noiseHigh⟩ := limited.noiseGlobal
  have speechLow := limited.speechRange
  have speechHigh := limited.speechGlobal
  have channelRange := channel_bounds channel
  refine .bind (separateModels_agrees limited) fun separated apart => ?_
  obtain ⟨up, down, apart⟩ := apart
  obtain ⟨upRange, downRange, isNoise, isSpeech, noiseGlobal, speechGlobal, notLow⟩ := apart
  rw [isNoise, isSpeech, noiseGlobal, speechGlobal]
  rw [noiseGlobal] at notLow
  rw [← weightedSum_moved (isMixture_noise channel),
    ← weightedSum_moved (isMixture_speech channel)]
  have noiseMoved := @weightedSum_moved _ model.noise (isMixture_noise channel) (-down)
  have speechMoved := @weightedSum_moved _ model.speech (isMixture_speech channel) up
  refine .bind (limitModel_agrees (by omega) (by omega) fun step nonneg notAbove k => ?_)
    fun speech leftSpeech => ?_
  · have mean := limited.speechMean k
    have least := kMinimumMean_bounds k
    have high := limited.notFar k
    rw [PerGaussian.moved_at]
    dsimp only
    omega
  refine .bind (limitModel_agrees (by omega) (by omega) fun step nonneg notAbove k => ?_)
    fun noise leftNoise => ?_
  · have mean := limited.noiseRange k
    rw [PerGaussian.moved_at]
    dsimp only
    omega
  obtain ⟨speechDown, rfl, -, belowSpeech, speechEnd⟩ := leftSpeech
  obtain ⟨noiseDown, rfl, noiseDownRange, belowNoise, noiseEnd⟩ := leftNoise
  rw [speechMoved] at belowSpeech speechEnd
  rw [noiseMoved] at belowNoise noiseEnd
  exact
    .pure
      (sound_of_moves updated upRange.1 downRange noiseDownRange belowNoise notLow noiseEnd
        belowSpeech speechEnd)

/-- A pass of the second loop keeps the models of its channel sound. -/
theorem updateModel_agrees
    {feature featureMinimum maxspe : Int}
    {found : ChannelLikelihood}
    (sound : model.Sound channel)
    (isFeature : IsFeature feature)
    (isMinimum : IsFeature featureMinimum)
    (isFound : found.channel = channel ∧ found.Sound feature model)
    (isMaxspe : maxspe = maxspeAt channel)
    (vadflag : Bool) :
    Agrees
      (fun narrow => updateModel narrow vadflag found feature featureMinimum maxspe model)
      (ChannelModel.Sound channel) := by
  obtain ⟨rfl, likelihood⟩ := isFound
  have gaussians := sound.gaussians
  have tables := tablesOf found.channel
  have maximumNoise := tables.maximumNoise
  have channelRange := channel_bounds found.channel
  obtain ⟨globalLow, globalHigh⟩ := sound.noiseGlobal
  refine .bind (weightedAverage_zero_agrees (isMixture_noise found.channel) fun k => ?_)
    fun noise isNoise => ?_
  · have mean := (gaussians.noise k).mean
    omega
  subst isNoise
  simp only [Int.shiftRight_eq_div_pow, Nat.cast_pow, Nat.cast_ofNat]
  refine Agrees.kept (by omega) (by omega) ?_
  generalize isGlobal :
    weightedSum (kNoiseDataWeights found.channel) model.noise / 2 ^ 6 = noiseGlobalMean
  have updates :
      UpdatesOf found.channel model fun k =>
        { channel := found.channel, k, feature, likelihood := found, featureMinimum
          noiseGlobalMean, maxspe
          noise := model.noise.at_ k
          speech := model.speech.at_ k } := by
    refine ⟨fun k => ?_, fun _ => rfl, fun _ => rfl, fun _ => isMaxspe⟩
    have range := tables.maxspe
    have speechStd := sound.speechStd k
    rw [← isMaxspe] at range
    exact
      ⟨isFeature, isMinimum, by dsimp only; omega, range, likelihood, rfl, rfl,
        gaussians.noise k, gaussians.speech k, speechStd⟩
  refine .bind (forGaussians_agrees fun k => GaussianUpdate.apply_agrees (updates.sound k) vadflag)
    fun updated leaves => ?_
  exact separated_agrees (updated_of_leaves sound updates leaves)

end Update

end ApmSdk.Vad
