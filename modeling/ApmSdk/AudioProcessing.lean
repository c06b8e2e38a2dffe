import ApmSdk.CaptureEffects
import ApmSdk.EchoControlMobile
import ApmSdk.GainControl

namespace ApmSdk.AudioProcessing

/-!
# The audio processing module

`AudioProcessingImpl` in an Android build with a default `Config`: no
beamformer, no intelligibility enhancer, no transient suppressor and no
experimental gain control.  Every function is a list of stages that returns at
its first error, as `RETURN_ON_ERR` does, and keeps what has been done by then.
-/

/-- `stream_delay_ms`, which `set_stream_delay_ms` keeps within its bounds. -/
structure StreamDelay where
  ms : Int
  inRange : 0 ≤ ms ∧ ms ≤ 500
  deriving Repr, DecidableEq

namespace StreamDelay

/-- The delay before any is set. -/
def initial : StreamDelay where
  ms := 0
  inRange := by decide

/-- The two bounds in `set_stream_delay_ms`. -/
def clamp (delay : Int) : StreamDelay where
  ms := min 500 (max 0 delay)
  inRange :=
    ⟨Int.le_min.mpr ⟨by decide, Int.le_max_left ..⟩, Int.min_le_left ..⟩

end StreamDelay

/--
Which handles can be allocated while a call runs, for the two components whose
`CreateHandle` may return a null pointer.
-/
structure Creations where
  aec : Nat → Bool
  aecm : Nat → Bool

/-- Every handle that is asked for can be allocated. -/
structure Creations.Succeed (created : Creations) : Prop where
  aec : ∀ index, created.aec index = true
  aecm : ∀ index, created.aecm index = true

/-- The memory never runs out. -/
def Creations.all : Creations where
  aec := fun _ => true
  aecm := fun _ => true

theorem Creations.succeed_all : Creations.all.Succeed where
  aec := fun _ => rfl
  aecm := fun _ => rfl

/-- `AudioProcessingImpl` -/
structure AudioProcessingImpl (cores : Cores) where
  formats : StreamFormats
  echoCancellation : EchoCancellation cores
  echoControlMobile : EchoControlMobile cores
  gainControl : GainControl cores
  highPassFilter : HighPassFilter
  noiseSuppression : NoiseSuppression cores
  levelEstimator : LevelEstimator cores
  voiceDetection : VoiceDetection cores
  renderAudio : Option (AudioBuffer cores)
  captureAudio : AudioBuffer cores
  streamDelayMs : StreamDelay
  delayOffsetMs : Int
  wasStreamDelaySet : Bool
  lastStreamDelayMs : Int
  lastAecSystemDelayMs : Int
  streamDelayJumps : Int
  aecSystemDelayJumps : Int

namespace AudioProcessingImpl

variable {cores : Cores}

section Lifts

/-- A function of the echo canceller, called by the module. -/
def onEchoCancellation
    (stage : Stage (EchoCancellation cores) Exit) :
    Stage (AudioProcessingImpl cores) Exit :=
  fun apm =>
    let ran := stage apm.echoCancellation
    ({ apm with echoCancellation := ran.1 }, ran.2)

/-- A function of the mobile echo canceller, called by the module. -/
def onEchoControlMobile
    (stage : Stage (EchoControlMobile cores) Exit) :
    Stage (AudioProcessingImpl cores) Exit :=
  fun apm =>
    let ran := stage apm.echoControlMobile
    ({ apm with echoControlMobile := ran.1 }, ran.2)

/-- A function of the gain control, called by the module. -/
def onGainControl
    (stage : Stage (GainControl cores) Exit) :
    Stage (AudioProcessingImpl cores) Exit :=
  fun apm =>
    let ran := stage apm.gainControl
    ({ apm with gainControl := ran.1 }, ran.2)

/-- A function of the module that neither reads nor writes the caller's data. -/
def onModule
    {Data : Type}
    (stage : Stage (AudioProcessingImpl cores) Exit) :
    Stage (AudioProcessingImpl cores × Data) Exit :=
  fun state =>
    let ran := stage state.1
    ((ran.1, state.2), ran.2)

theorem stage_of_onModule
    {Data : Type}
    {stage : Stage (AudioProcessingImpl cores) Exit}
    {apm reached : AudioProcessingImpl cores}
    {data written : Data}
    {outcome : Option Exit}
    (ran : onModule stage (apm, data) = ((reached, written), outcome)) :
    stage apm = (reached, outcome) := by
  simp only [onModule, Prod.mk.injEq] at ran
  exact Prod.ext ran.1.1 ran.2

end Lifts

section Initialization

/-- `render_audio` and `capture_audio` of the current formats. -/
def allocateBuffers : Stage (AudioProcessingImpl cores) Exit :=
  fun apm =>
    let formats := apm.formats
    let api := formats.apiFormat
    let revOutFrames :=
      if api.reverseOutputStream.numFrames = 0 then
        formats.revProcFrames
      else
        api.reverseOutputStream.numFrames
    ({ apm with
        renderAudio :=
          if 0 < api.reverseInputStream.numChannels then
            some
              (.create api.reverseInputStream.numFrames
                api.reverseInputStream.numChannels formats.revProcFrames
                formats.numReverseChannels revOutFrames)
          else
            none
        captureAudio :=
          .create api.inputStream.numFrames api.inputStream.numChannels
            formats.fwdProcFrames formats.numOutputChannels
            api.outputStream.numFrames }, none)

/-- The components whose `Initialize` cannot fail. -/
def initializeEffects : Stage (AudioProcessingImpl cores) Exit :=
  fun apm =>
    let formats := apm.formats
    ({ apm with
        highPassFilter :=
          apm.highPassFilter.initializeComponent formats.numProcChannels
            formats.fwdProcRate.hz
        noiseSuppression :=
          apm.noiseSuppression.initializeComponent formats.numProcChannels
            formats.fwdProcRate.hz
        levelEstimator := apm.levelEstimator.initializeComponent
        voiceDetection :=
          apm.voiceDetection.initializeComponent formats.splitRate.hz },
      none)

/-- `Initialize` of the echo canceller. -/
def initializeEcho
    (created : Creations) : Stage (AudioProcessingImpl cores) Exit :=
  fun apm =>
    onEchoCancellation
      (EchoCancellation.initializeComponent apm.formats created.aec) apm

/-- `Initialize` of the mobile echo canceller. -/
def initializeMobile
    (created : Creations) : Stage (AudioProcessingImpl cores) Exit :=
  fun apm =>
    onEchoControlMobile
      (EchoControlMobile.initializeComponent apm.formats created.aecm) apm

/-- `Initialize` of the gain control. -/
def initializeGain : Stage (AudioProcessingImpl cores) Exit :=
  fun apm =>
    onGainControl (GainControl.initializeComponent apm.formats) apm

/-- The stages of `InitializeLocked()`. -/
def initializeStages
    (created : Creations) : List (Stage (AudioProcessingImpl cores) Exit) :=
  [allocateBuffers, initializeEcho created, initializeMobile created,
    initializeGain, initializeEffects]

/-- `InitializeLocked()` -/
def initializeLocked
    (created : Creations) : Stage (AudioProcessingImpl cores) Exit :=
  runStages (initializeStages created)

/-- `InitializeLocked(config)` -/
def initializeLockedWith
    (created : Creations)
    (config : ProcessingConfig) :
    Stage (AudioProcessingImpl cores) Exit :=
  fun apm =>
    match checked : config.refusal with
    | some code => (apm, some (.error code))
    | none =>
        initializeLocked created
          { apm with
            formats :=
              .choose config checked apm.echoControlMobile.enabled }

/-- `MaybeInitialize` -/
def maybeInitialize
    (created : Creations)
    (config : ProcessingConfig) :
    Stage (AudioProcessingImpl cores) Exit :=
  fun apm =>
    if config = apm.formats.apiFormat then
      (apm, none)
    else
      initializeLockedWith created config apm

/-- `AudioProcessingImpl(..)` before its first `Initialize()`. -/
def construct : AudioProcessingImpl cores where
  formats := .initial
  echoCancellation := .create
  echoControlMobile := .create
  gainControl := .create
  highPassFilter := .create
  noiseSuppression := .create
  levelEstimator := .create
  voiceDetection := .create
  renderAudio := none
  captureAudio := .create 160 1 160 1 160
  streamDelayMs := .initial
  delayOffsetMs := 0
  wasStreamDelaySet := false
  lastStreamDelayMs := 0
  lastAecSystemDelayMs := 0
  streamDelayJumps := -1
  aecSystemDelayJumps := -1

/-- `AudioProcessing::Create()`, which needs no handle to succeed. -/
def create : AudioProcessingImpl cores :=
  (initializeLocked .all construct).1

end Initialization

section Capture

/-- The flags that `is_data_processed` counts. -/
def enabledFlags (apm : AudioProcessingImpl cores) : List Bool :=
  [apm.echoCancellation.enabled, apm.echoControlMobile.enabled,
    apm.gainControl.enabled, apm.highPassFilter.enabled,
    apm.noiseSuppression.enabled, apm.levelEstimator.enabled,
    apm.voiceDetection.enabled]

/-- `is_data_processed` -/
def isDataProcessed (apm : AudioProcessingImpl cores) : Bool :=
  let enabledCount := apm.enabledFlags.count true
  let level := apm.levelEstimator.enabled
  let voice := apm.voiceDetection.enabled
  if enabledCount = 0 then
    false
  else if enabledCount = 1 then
    !(level || voice)
  else if enabledCount = 2 then
    !(level && voice)
  else
    true

/-- `output_copy_needed` -/
def outputCopyNeeded
    (apm : AudioProcessingImpl cores)
    (isDataProcessed : Bool) : Bool :=
  apm.formats.apiFormat.outputStream.numChannels !=
      apm.formats.apiFormat.inputStream.numChannels ||
    isDataProcessed

/-- `synthesis_needed` -/
def synthesisNeeded
    (apm : AudioProcessingImpl cores)
    (isDataProcessed : Bool) : Bool :=
  isDataProcessed && apm.formats.fwdProcRate.isSplit

/-- `analysis_needed` -/
def analysisNeeded
    (apm : AudioProcessingImpl cores)
    (isDataProcessed : Bool) : Bool :=
  if !isDataProcessed && !apm.voiceDetection.enabled then
    false
  else
    apm.formats.fwdProcRate.isSplit

/-- A jump counter of `MaybeUpdateHistograms` after a new delay. -/
def countJump
    (jumps delay lastDelay : Int) : Int :=
  if 60 < delay - lastDelay ∧ lastDelay ≠ 0 then
    (if jumps = -1 then 0 else jumps) + 1
  else
    jumps

/-- `MaybeUpdateHistograms` -/
def maybeUpdateHistograms : Stage (AudioProcessingImpl cores) Exit :=
  fun apm =>
    let aec := apm.echoCancellation
    if !aec.enabled then
      (apm, none)
    else
      match aec.handles.head?.join with
      | none => (apm, some .abort)
      | some handle =>
          let activate := fun (jumps : Int) =>
            if jumps = -1 ∧ aec.streamHasEcho = true then 0 else jumps
          let systemDelay :=
            (cores.aecSystemDelay handle.core).tdiv
              (apm.formats.splitRate.hz.tdiv 1000)
          ({ apm with
              streamDelayJumps :=
                countJump (activate apm.streamDelayJumps)
                  apm.streamDelayMs.ms apm.lastStreamDelayMs
              lastStreamDelayMs := apm.streamDelayMs.ms
              aecSystemDelayJumps :=
                countJump (activate apm.aecSystemDelayJumps)
                  systemDelay apm.lastAecSystemDelayMs
              lastAecSystemDelayMs := systemDelay }, none)

/-- `SplitIntoFrequencyBands` of the capture buffer, where it is needed. -/
def splitCapture
    (dataProcessed : Bool) : Stage (AudioProcessingImpl cores) Exit :=
  fun apm =>
    (if apm.analysisNeeded dataProcessed then
      { apm with captureAudio := apm.captureAudio.splitIntoFrequencyBands }
    else
      apm, none)

/-- `high_pass_filter->ProcessCaptureAudio` -/
def filterCapture : Stage (AudioProcessingImpl cores) Exit :=
  fun apm =>
    let ran :=
      HighPassFilter.processCaptureAudio
        (apm.highPassFilter, apm.captureAudio)
    ({ apm with
        highPassFilter := ran.1.1
        captureAudio := ran.1.2 }, ran.2)

/-- A capture function of the gain control. -/
def gainCapture
    (stage : Stage (GainControl cores × AudioBuffer cores) Exit) :
    Stage (AudioProcessingImpl cores) Exit :=
  fun apm =>
    let ran := stage (apm.gainControl, apm.captureAudio)
    ({ apm with
        gainControl := ran.1.1
        captureAudio := ran.1.2 }, ran.2)

/-- A capture function of the noise suppressor. -/
def noiseCapture
    (stage : Stage (NoiseSuppression cores × AudioBuffer cores) Exit) :
    Stage (AudioProcessingImpl cores) Exit :=
  fun apm =>
    let ran := stage (apm.noiseSuppression, apm.captureAudio)
    ({ apm with
        noiseSuppression := ran.1.1
        captureAudio := ran.1.2 }, ran.2)

/-- `echo_cancellation->ProcessCaptureAudio` -/
def echoCapture : Stage (AudioProcessingImpl cores) Exit :=
  fun apm =>
    let ran :=
      EchoCancellation.processCaptureAudio apm.formats
        apm.streamDelayMs.ms apm.wasStreamDelaySet
        (apm.echoCancellation, apm.captureAudio)
    ({ apm with
        echoCancellation := ran.1.1
        captureAudio := ran.1.2 }, ran.2)

/-- `CopyLowPassToReference`, where the mobile canceller will need it. -/
def referenceCapture : Stage (AudioProcessingImpl cores) Exit :=
  fun apm =>
    (if apm.echoControlMobile.enabled && apm.noiseSuppression.enabled then
      { apm with captureAudio := apm.captureAudio.copyLowPassToReference }
    else
      apm, none)

/-- `echo_control_mobile->ProcessCaptureAudio` -/
def mobileCapture : Stage (AudioProcessingImpl cores) Exit :=
  fun apm =>
    let ran :=
      EchoControlMobile.processCaptureAudio apm.formats
        apm.streamDelayMs.ms apm.wasStreamDelaySet
        (apm.echoControlMobile, apm.captureAudio)
    ({ apm with
        echoControlMobile := ran.1.1
        captureAudio := ran.1.2 }, ran.2)

/-- `voice_detection->ProcessCaptureAudio` -/
def voiceCapture : Stage (AudioProcessingImpl cores) Exit :=
  fun apm =>
    let ran :=
      VoiceDetection.processCaptureAudio
        (apm.voiceDetection, apm.captureAudio)
    ({ apm with
        voiceDetection := ran.1.1
        captureAudio := ran.1.2 }, ran.2)

/-- `gain_control->ProcessCaptureAudio` -/
def gainProcess : Stage (AudioProcessingImpl cores) Exit :=
  fun apm =>
    gainCapture
      (GainControl.processCaptureAudio apm.echoCancellation.streamHasEcho)
      apm

/-- `MergeFrequencyBands` of the capture buffer, where it is needed. -/
def mergeCapture
    (dataProcessed : Bool) : Stage (AudioProcessingImpl cores) Exit :=
  fun apm =>
    (if apm.synthesisNeeded dataProcessed then
      { apm with captureAudio := apm.captureAudio.mergeFrequencyBands }
    else
      apm, none)

/-- `level_estimator->ProcessStream` -/
def estimateLevel : Stage (AudioProcessingImpl cores) Exit :=
  fun apm =>
    ({ apm with
        levelEstimator :=
          apm.levelEstimator.processStream apm.captureAudio }, none)

/-- The end of a successful frame: its delay has been used up. -/
def clearStreamDelay : Stage (AudioProcessingImpl cores) Exit :=
  fun apm => ({ apm with wasStreamDelaySet := false }, none)

/-- The stages of `ProcessStreamLocked`. -/
def captureStages
    (dataProcessed : Bool) :
    List (Stage (AudioProcessingImpl cores) Exit) :=
  [maybeUpdateHistograms,
    splitCapture dataProcessed,
    filterCapture,
    gainCapture GainControl.analyzeCaptureAudio,
    noiseCapture NoiseSuppression.analyzeCaptureAudio,
    echoCapture,
    referenceCapture,
    noiseCapture NoiseSuppression.processCaptureAudio,
    mobileCapture,
    voiceCapture,
    gainProcess,
    mergeCapture dataProcessed,
    estimateLevel,
    clearStreamDelay]

/-- `ProcessStreamLocked` -/
def processStreamLocked : Stage (AudioProcessingImpl cores) Exit :=
  fun apm => runStages (captureStages apm.isDataProcessed) apm

/-- The three `ReadQueuedRenderData` calls at the head of `ProcessStream`. -/
def readQueuedRenderData : Stage (AudioProcessingImpl cores) Exit :=
  runStages
    [fun apm =>
        onEchoCancellation
          (EchoCancellation.readQueuedRenderData apm.formats) apm,
      fun apm =>
        onEchoControlMobile
          (EchoControlMobile.readQueuedRenderData apm.formats) apm,
      onGainControl GainControl.readQueuedRenderData]

/-- Whether a frame has a native rate. -/
def isNativeRate (sampleRateHz : Int) : Bool :=
  NativeRate.kNativeSampleRatesHz.any (fun rate => sampleRateHz == rate.hz)

/-- A stream of the current format with the rate and channels of a frame. -/
def streamOf (frame : AudioFrame) (stream : StreamConfig) : StreamConfig :=
  { stream with
    sampleRateHz := frame.sampleRateHz
    numChannels := frame.numChannels }

/-- The `processing_config` that a captured frame asks for. -/
def captureConfig
    (apm : AudioProcessingImpl cores)
    (frame : AudioFrame) : ProcessingConfig :=
  let api := apm.formats.apiFormat
  { api with
    inputStream := streamOf frame api.inputStream
    outputStream := streamOf frame api.outputStream }

/-- The checks of the rate of a captured frame. -/
def checkFrameRate :
    Stage (AudioProcessingImpl cores × AudioFrame) Exit :=
  fun state =>
    let frame := state.2
    (state,
      if !isNativeRate frame.sampleRateHz then
        some (.error .kBadSampleRateError)
      else if state.1.echoControlMobile.enabled &&
          NativeRate.kSampleRate16kHz.hz < frame.sampleRateHz then
        some (.error .kUnsupportedComponentError)
      else
        none)

/-- `MaybeInitializeCapture` for a captured frame. -/
def initializeForFrame
    (created : Creations) :
    Stage (AudioProcessingImpl cores × AudioFrame) Exit :=
  fun state =>
    onModule
      (maybeInitialize created (state.1.captureConfig state.2)) state

/-- The check of the length of a captured frame. -/
def checkFrameLength :
    Stage (AudioProcessingImpl cores × AudioFrame) Exit :=
  fun state =>
    (state,
      if state.2.samplesPerChannel ≠
          state.1.formats.apiFormat.inputStream.numFrames then
        some (.error .kBadDataLengthError)
      else
        none)

/-- `capture_audio->DeinterleaveFrom` -/
def loadFrame : Stage (AudioProcessingImpl cores × AudioFrame) Exit :=
  fun state =>
    match state.1.captureAudio.deinterleaveFrom state.2 with
    | none => (state, some .abort)
    | some loaded => (({ state.1 with captureAudio := loaded }, state.2), none)

/-- `capture_audio->InterleaveTo` -/
def storeFrame : Stage (AudioProcessingImpl cores × AudioFrame) Exit :=
  fun state =>
    let apm := state.1
    match
      apm.captureAudio.interleaveTo state.2
        (apm.outputCopyNeeded apm.isDataProcessed) with
    | none => (state, some .abort)
    | some stored => ((apm, stored), none)

/-- What `ProcessStream(AudioFrame*)` does before the components run. -/
def prepareStages
    (created : Creations) :
    List (Stage (AudioProcessingImpl cores × AudioFrame) Exit) :=
  [onModule readQueuedRenderData,
    checkFrameRate,
    initializeForFrame created,
    checkFrameLength,
    loadFrame]

/-- The stages of `ProcessStream(AudioFrame*)` for a frame that is not null. -/
def processStreamStages
    (created : Creations) :
    List (Stage (AudioProcessingImpl cores × AudioFrame) Exit) :=
  prepareStages created ++ [onModule processStreamLocked, storeFrame]

/-- `ProcessStream(AudioFrame*)` for a frame that is not null. -/
def processStream
    (created : Creations) :
    Stage (AudioProcessingImpl cores × AudioFrame) Exit :=
  runStages (processStreamStages created)

/-- The `processing_config` that captured float data asks for. -/
def captureFloatConfig
    (apm : AudioProcessingImpl cores)
    (inputConfig outputConfig : StreamConfig) : ProcessingConfig :=
  { apm.formats.apiFormat with
    inputStream := inputConfig
    outputStream := outputConfig }

/-- `capture_audio->CopyFrom` -/
def loadFloat
    (src : cores.FloatChannels) :
    Stage (AudioProcessingImpl cores × cores.FloatChannels) Exit :=
  onModule fun apm =>
    ({ apm with captureAudio := apm.captureAudio.copyFrom src }, none)

/-- What the overload for float data does before the components run. -/
def prepareFloatStages
    (created : Creations)
    (src : cores.FloatChannels)
    (inputConfig outputConfig : StreamConfig) :
    List
      (Stage (AudioProcessingImpl cores × cores.FloatChannels) Exit) :=
  [onModule readQueuedRenderData,
    onModule fun apm =>
      maybeInitialize created
        (apm.captureFloatConfig inputConfig outputConfig) apm,
    loadFloat src]

/-- The stages of `ProcessStream(src, input_config, output_config, dest)`. -/
def processStreamFloatStages
    (created : Creations)
    (src : cores.FloatChannels)
    (inputConfig outputConfig : StreamConfig) :
    List
      (Stage (AudioProcessingImpl cores × cores.FloatChannels) Exit) :=
  prepareFloatStages created src inputConfig outputConfig ++
    [onModule processStreamLocked,
      fun state =>
        ((state.1, cores.copyTo state.1.captureAudio.samples), none)]

/--
`ProcessStream(src, input_config, output_config, dest)` for pointers that are
not null; the data is what `dest` points to.
-/
def processStreamFloat
    (created : Creations)
    (src : cores.FloatChannels)
    (inputConfig outputConfig : StreamConfig) :
    Stage (AudioProcessingImpl cores × cores.FloatChannels) Exit :=
  runStages
    (processStreamFloatStages created src inputConfig outputConfig)

end Capture

section Render

/-- `SplitIntoFrequencyBands` of the render buffer, where it is needed. -/
def splitRender : Stage (AudioProcessingImpl cores) Exit :=
  fun apm =>
    (if apm.formats.revProcRate = .kSampleRate32kHz then
      { apm with
        renderAudio :=
          apm.renderAudio.map AudioBuffer.splitIntoFrequencyBands }
    else
      apm, none)

/-- A render function of a component, which reads the render buffer. -/
def withRender
    (stage :
      AudioBuffer cores → Stage (AudioProcessingImpl cores) Exit) :
    Stage (AudioProcessingImpl cores) Exit :=
  fun apm =>
    match apm.renderAudio with
    | none => (apm, some .abort)
    | some audio => stage audio apm

/-- `ProcessReverseStreamLocked` -/
def processReverseStreamLocked : Stage (AudioProcessingImpl cores) Exit :=
  runStages
    [splitRender,
      withRender fun audio apm =>
        onEchoCancellation
          (EchoCancellation.processRenderAudio apm.formats audio) apm,
      withRender fun audio apm =>
        onEchoControlMobile
          (EchoControlMobile.processRenderAudio apm.formats audio) apm,
      withRender fun audio =>
        onGainControl (GainControl.processRenderAudio audio)]

/-- The checks of a render frame against the current format. -/
def checkReverseFrame :
    Stage (AudioProcessingImpl cores × AudioFrame) Exit :=
  fun state =>
    let frame := state.2
    (state,
      if !isNativeRate frame.sampleRateHz then
        some (.error .kBadSampleRateError)
      else if frame.sampleRateHz ≠
          state.1.formats.apiFormat.inputStream.sampleRateHz then
        some (.error .kBadSampleRateError)
      else if frame.numChannels = 0 then
        some (.error .kBadNumberChannelsError)
      else
        none)

/-- The `processing_config` that a render frame asks for. -/
def renderConfig
    (apm : AudioProcessingImpl cores)
    (frame : AudioFrame) : ProcessingConfig :=
  let api := apm.formats.apiFormat
  { api with
    reverseInputStream := streamOf frame api.reverseInputStream
    reverseOutputStream := streamOf frame api.reverseOutputStream }

/-- `MaybeInitializeRender` for a render frame. -/
def initializeForReverseFrame
    (created : Creations) :
    Stage (AudioProcessingImpl cores × AudioFrame) Exit :=
  fun state =>
    onModule
      (maybeInitialize created (state.1.renderConfig state.2)) state

/-- The check of the length of a render frame. -/
def checkReverseFrameLength :
    Stage (AudioProcessingImpl cores × AudioFrame) Exit :=
  fun state =>
    (state,
      if state.2.samplesPerChannel ≠
          state.1.formats.apiFormat.reverseInputStream.numFrames then
        some (.error .kBadDataLengthError)
      else
        none)

/-- `render_audio->DeinterleaveFrom` -/
def loadReverseFrame :
    Stage (AudioProcessingImpl cores × AudioFrame) Exit :=
  fun state =>
    match
      state.1.renderAudio.bind
        (fun audio => audio.deinterleaveFrom state.2) with
    | none => (state, some .abort)
    | some loaded =>
        (({ state.1 with renderAudio := some loaded }, state.2), none)

/-- What `ProcessReverseStream(AudioFrame*)` does before the components run. -/
def prepareReverseStages
    (created : Creations) :
    List (Stage (AudioProcessingImpl cores × AudioFrame) Exit) :=
  [checkReverseFrame,
    initializeForReverseFrame created,
    checkReverseFrameLength,
    loadReverseFrame]

/--
`ProcessReverseStream(AudioFrame*)` for a frame that is not null.  Without the
intelligibility enhancer it is `AnalyzeReverseStream`.
-/
def processReverseStream
    (created : Creations) :
    Stage (AudioProcessingImpl cores × AudioFrame) Exit :=
  runStages
    (prepareReverseStages created ++ [onModule processReverseStreamLocked])

/-- The `processing_config` that float render data asks for. -/
def renderFloatConfig
    (apm : AudioProcessingImpl cores)
    (inputConfig outputConfig : StreamConfig) : ProcessingConfig :=
  { apm.formats.apiFormat with
    reverseInputStream := inputConfig
    reverseOutputStream := outputConfig }

/-- The check of the channels of float render data. -/
def checkReverseChannels
    (inputConfig : StreamConfig) :
    Stage (AudioProcessingImpl cores × cores.FloatChannels) Exit :=
  fun state =>
    (state,
      if inputConfig.numChannels = 0 then
        some (.error .kBadNumberChannelsError)
      else
        none)

/-- `render_audio->CopyFrom` -/
def loadReverseFloat
    (src : cores.FloatChannels) :
    Stage (AudioProcessingImpl cores × cores.FloatChannels) Exit :=
  onModule fun apm =>
    match apm.renderAudio with
    | none => (apm, some .abort)
    | some audio =>
        ({ apm with renderAudio := some (audio.copyFrom src) }, none)

/-- What the overload for float render data does before the components run. -/
def prepareReverseFloatStages
    (created : Creations)
    (src : cores.FloatChannels)
    (inputConfig outputConfig : StreamConfig) :
    List
      (Stage (AudioProcessingImpl cores × cores.FloatChannels) Exit) :=
  [checkReverseChannels inputConfig,
    onModule fun apm =>
      maybeInitialize created
        (apm.renderFloatConfig inputConfig outputConfig) apm,
    loadReverseFloat src]

/--
`ProcessReverseStream(src, input_config, output_config, dest)` for a source that
is not null; the data is what `dest` points to.
-/
def processReverseStreamFloat
    (created : Creations)
    (src : cores.FloatChannels)
    (inputConfig outputConfig : StreamConfig) :
    Stage (AudioProcessingImpl cores × cores.FloatChannels) Exit :=
  runStages
    (prepareReverseFloatStages created src inputConfig outputConfig ++
      [onModule processReverseStreamLocked,
        fun state =>
          ((state.1,
            if inputConfig ≠ outputConfig then
              cores.convertRender inputConfig outputConfig src
            else
              src), none)])

end Render

section Parameters

/-- `set_stream_delay_ms`; the sum is taken without overflow. -/
def setStreamDelayMs
    (delay : Int) : Stage (AudioProcessingImpl cores) Exit :=
  fun apm =>
    let shifted := delay + apm.delayOffsetMs
    ({ apm with
        wasStreamDelaySet := true
        streamDelayMs := .clamp shifted },
      if shifted < 0 ∨ 500 < shifted then
        some (.error .kBadStreamParameterWarning)
      else
        none)

/-- `set_delay_offset_ms` -/
def setDelayOffsetMs
    (offset : Int) : Stage (AudioProcessingImpl cores) Exit :=
  fun apm => ({ apm with delayOffsetMs := offset }, none)

end Parameters

end AudioProcessingImpl

end ApmSdk.AudioProcessing
