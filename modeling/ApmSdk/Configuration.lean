import ApmSdk.ComponentFrames

namespace ApmSdk.AudioProcessing

/-!
# The configuration of the module

A configuration is what the formats, the settings and the initialised components
of the module amount to, without any signal state.  Reading queued render data,
processing a captured frame and processing a render frame leave it as it is.
-/

/-- The formats in force and what every component is set up for. -/
structure Configuration where
  formats : StreamFormats
  echoCancellation : ProcessingComponent HandleSetup Unit
  echoControlMobile : ProcessingComponent HandleSetup Unit
  gainControl : ProcessingComponent HandleSetup Unit
  gainSettings : GainSettings
  highPassEnabled : Bool
  highPassCoefficients : List (List Int)
  noiseSuppression : NoiseSuppression.Setup
  voiceDetection : VoiceDetection.Setup
  levelEstimatorEnabled : Bool
  captureSizes : BufferSizes
  renderSizes : Option BufferSizes

variable {cores : Cores}

namespace AudioProcessingImpl

/-- The configuration of a module state. -/
def configuration (apm : AudioProcessingImpl cores) : Configuration where
  formats := apm.formats
  echoCancellation := apm.echoCancellation.shape
  echoControlMobile := apm.echoControlMobile.shape
  gainControl := apm.gainControl.shape
  gainSettings := apm.gainControl.settings
  highPassEnabled := apm.highPassFilter.enabled
  highPassCoefficients := apm.highPassFilter.coefficients
  noiseSuppression := apm.noiseSuppression.setup
  voiceDetection := apm.voiceDetection.setup
  levelEstimatorEnabled := apm.levelEstimator.enabled
  captureSizes := apm.captureAudio.sizes
  renderSizes := apm.renderAudio.map AudioBuffer.sizes

/-- A stage that leaves the configuration as it was. -/
def KeepsConfiguration
    (stage : Stage (AudioProcessingImpl cores) Exit) : Prop :=
  ∀ apm, (stage apm).1.configuration = apm.configuration

/-- Stages that keep the configuration keep it together. -/
theorem keepsConfiguration_runStages
    {stages : List (Stage (AudioProcessingImpl cores) Exit)}
    (kept : ∀ stage ∈ stages, KeepsConfiguration stage) :
    KeepsConfiguration (runStages stages) :=
  runStages_frame configuration kept

/-- A list of checks of the stages, one after another. -/
theorem forall_mem_stages_cons
    {holds : Stage (AudioProcessingImpl cores) Exit → Prop}
    {stage : Stage (AudioProcessingImpl cores) Exit}
    {rest : List (Stage (AudioProcessingImpl cores) Exit)}
    (head : holds stage)
    (tail : ∀ later ∈ rest, holds later) :
    ∀ member ∈ stage :: rest, holds member :=
  List.forall_mem_cons.mpr ⟨head, tail⟩

/-- A function that keeps the shape of the echo canceller. -/
theorem keeps_onEchoCancellation
    {stage : Stage (EchoCancellation cores) Exit}
    (kept : ∀ aec, (stage aec).1.shape = aec.shape) :
    KeepsConfiguration (onEchoCancellation stage) := by
  intro apm
  simp only [onEchoCancellation, configuration, kept]

/-- A function that keeps the shape of the mobile echo canceller. -/
theorem keeps_onEchoControlMobile
    {stage : Stage (EchoControlMobile cores) Exit}
    (kept : ∀ aecm, (stage aecm).1.shape = aecm.shape) :
    KeepsConfiguration (onEchoControlMobile stage) := by
  intro apm
  simp only [onEchoControlMobile, configuration, kept]

/-- A function that keeps the shape and the settings of the gain control. -/
theorem keeps_onGainControl
    {stage : Stage (GainControl cores) Exit}
    (kept :
      ∀ agc,
        (stage agc).1.shape = agc.shape ∧
          (stage agc).1.settings = agc.settings) :
    KeepsConfiguration (onGainControl stage) := by
  intro apm
  simp only [onGainControl, configuration, (kept _).1, (kept _).2]

section Capture

theorem keeps_maybeUpdateHistograms :
    KeepsConfiguration (@maybeUpdateHistograms cores) := by
  intro apm
  simp only [maybeUpdateHistograms]
  split
  · rfl
  · split <;> rfl

theorem keeps_splitCapture (dataProcessed : Bool) :
    KeepsConfiguration (@splitCapture cores dataProcessed) := by
  intro apm
  unfold splitCapture
  split <;> rfl

theorem keeps_filterCapture :
    KeepsConfiguration (@filterCapture cores) := by
  intro apm
  obtain ⟨enabled, coefficients, sizes⟩ :=
    HighPassFilter.kept_processCaptureAudio
      apm.highPassFilter apm.captureAudio
  simp only [filterCapture, configuration, enabled, coefficients, sizes]

theorem keeps_gainCapture
    {stage : Stage (GainControl cores × AudioBuffer cores) Exit}
    (kept : ∀ state, GainControl.Kept state (stage state).1) :
    KeepsConfiguration (gainCapture stage) := by
  intro apm
  have same := kept (apm.gainControl, apm.captureAudio)
  simp only [gainCapture, configuration, same.shape, same.settings,
    same.sizes]

theorem keeps_noiseCapture
    {slot : Nat → Stage (Suppressor cores × cores.Samples) Exit}
    (rates :
      ∀ index suppressor samples,
        (slot index (suppressor, samples)).1.1.sampleRateHz =
          suppressor.sampleRateHz) :
    KeepsConfiguration
      (noiseCapture (NoiseSuppression.captureLoop slot)) := by
  intro apm
  obtain ⟨setup, sizes⟩ :=
    NoiseSuppression.kept_captureLoop rates
      apm.noiseSuppression apm.captureAudio
  simp only [noiseCapture, configuration, setup, sizes]

theorem keeps_echoCapture :
    KeepsConfiguration (@echoCapture cores) := by
  intro apm
  simp [echoCapture, configuration]

theorem keeps_referenceCapture :
    KeepsConfiguration (@referenceCapture cores) := by
  intro apm
  unfold referenceCapture
  split <;> rfl

theorem keeps_mobileCapture :
    KeepsConfiguration (@mobileCapture cores) := by
  intro apm
  simp [mobileCapture, configuration]

theorem keeps_voiceCapture :
    KeepsConfiguration (@voiceCapture cores) := by
  intro apm
  obtain ⟨setup, sizes⟩ :=
    VoiceDetection.kept_processCaptureAudio
      apm.voiceDetection apm.captureAudio
  simp only [voiceCapture, configuration, setup, sizes]

theorem keeps_gainProcess :
    KeepsConfiguration (@gainProcess cores) := by
  intro apm
  exact
    keeps_gainCapture
      (GainControl.kept_processCaptureAudio
        apm.echoCancellation.streamHasEcho)
      apm

theorem keeps_mergeCapture (dataProcessed : Bool) :
    KeepsConfiguration (@mergeCapture cores dataProcessed) := by
  intro apm
  unfold mergeCapture
  split <;> rfl

theorem keeps_estimateLevel :
    KeepsConfiguration (@estimateLevel cores) := by
  intro apm
  simp only [estimateLevel, configuration, LevelEstimator.processStream]
  split <;> rfl

theorem keeps_clearStreamDelay :
    KeepsConfiguration (@clearStreamDelay cores) :=
  fun _ => rfl

/-- Every stage of the capture chain keeps the configuration. -/
theorem keeps_of_mem_captureStages
    (dataProcessed : Bool) :
    ∀ stage ∈ @captureStages cores dataProcessed,
      KeepsConfiguration stage := by
  unfold captureStages
  refine forall_mem_stages_cons keeps_maybeUpdateHistograms ?_
  refine forall_mem_stages_cons (keeps_splitCapture dataProcessed) ?_
  refine forall_mem_stages_cons keeps_filterCapture ?_
  refine forall_mem_stages_cons
    (keeps_gainCapture GainControl.kept_analyzeCaptureAudio) ?_
  refine forall_mem_stages_cons
    (keeps_noiseCapture (fun _ _ _ => rfl)) ?_
  refine forall_mem_stages_cons keeps_echoCapture ?_
  refine forall_mem_stages_cons keeps_referenceCapture ?_
  refine forall_mem_stages_cons
    (keeps_noiseCapture (fun _ _ _ => rfl)) ?_
  refine forall_mem_stages_cons keeps_mobileCapture ?_
  refine forall_mem_stages_cons keeps_voiceCapture ?_
  refine forall_mem_stages_cons keeps_gainProcess ?_
  refine forall_mem_stages_cons (keeps_mergeCapture dataProcessed) ?_
  refine forall_mem_stages_cons keeps_estimateLevel ?_
  exact forall_mem_stages_cons keeps_clearStreamDelay
    (List.forall_mem_nil _)

theorem keeps_processStreamLocked :
    KeepsConfiguration (@processStreamLocked cores) :=
  fun apm =>
    keepsConfiguration_runStages
      (keeps_of_mem_captureStages apm.isDataProcessed) apm

theorem keeps_readQueuedRenderData :
    KeepsConfiguration (@readQueuedRenderData cores) := by
  refine keepsConfiguration_runStages ?_
  refine forall_mem_stages_cons ?_ (forall_mem_stages_cons ?_
    (forall_mem_stages_cons ?_ (List.forall_mem_nil _)))
  · exact fun apm =>
      keeps_onEchoCancellation
        EchoCancellation.shape_readQueuedRenderData apm
  · exact fun apm =>
      keeps_onEchoControlMobile
        EchoControlMobile.shape_readQueuedRenderData apm
  · exact
      keeps_onGainControl fun agc =>
        ⟨GainControl.shape_readQueuedRenderData agc, rfl⟩

end Capture

section Render

theorem keeps_withRender
    {stage :
      AudioBuffer cores → Stage (AudioProcessingImpl cores) Exit}
    (kept : ∀ audio, KeepsConfiguration (stage audio)) :
    KeepsConfiguration (withRender stage) := by
  intro apm
  unfold withRender
  split
  · rfl
  · exact kept _ apm

theorem keeps_processReverseStreamLocked :
    KeepsConfiguration (@processReverseStreamLocked cores) := by
  refine keepsConfiguration_runStages ?_
  refine forall_mem_stages_cons ?_ (forall_mem_stages_cons ?_
    (forall_mem_stages_cons ?_ (forall_mem_stages_cons ?_
      (List.forall_mem_nil _))))
  · intro apm
    unfold splitRender
    split
    · cases audio : apm.renderAudio with
      | none =>
          simp [configuration, audio]
      | some buffer =>
          simp [configuration, audio, AudioBuffer.sizes,
            AudioBuffer.splitIntoFrequencyBands]
    · rfl
  · exact keeps_withRender fun audio apm =>
      keeps_onEchoCancellation
        (EchoCancellation.shape_processRenderAudio audio) apm
  · exact keeps_withRender fun audio apm =>
      keeps_onEchoControlMobile
        (EchoControlMobile.shape_processRenderAudio audio) apm
  · exact keeps_withRender fun audio =>
      keeps_onGainControl fun agc =>
        ⟨GainControl.shape_processRenderAudio audio agc,
          GainControl.settings_processRenderAudio audio agc⟩

end Render

end AudioProcessingImpl

end ApmSdk.AudioProcessing
