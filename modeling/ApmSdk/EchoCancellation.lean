import ApmSdk.AudioBuffer
import ApmSdk.ComponentSetup

namespace ApmSdk.AudioProcessing

/-!
# The echo canceller

`EchoCancellationImpl` over the checks of `echo_cancellation.c`.  The options of
`SetExtraOptions` are those of a default `Config`: the extended filter, the
delay agnostic mode and the next generation canceller are off.
-/

/-- The codes that the `WebRtcAec_` and `WebRtcAecm_` functions return. -/
inductive AecError where
  | unspecifiedError
  | unsupportedFunctionError
  | uninitializedError
  | nullPointerError
  | badParameterError
  | badParameterWarning
  deriving Repr, DecidableEq

/-- An `Aec` instance: its flag and rate, and the canceller behind them. -/
structure AecHandle (cores : Cores) where
  core : cores.AecCore
  initFlag : Bool
  sampFreq : Int

namespace AecHandle

variable {cores : Cores}

/-- What the instance is set up for. -/
def setup (handle : AecHandle cores) : HandleSetup :=
  ⟨handle.initFlag, handle.sampFreq⟩

/-- `WebRtcAec_Create`, when it succeeds. -/
def create : AecHandle cores where
  core := cores.newAecCore
  initFlag := false
  sampFreq := 0

/-- `WebRtcAec_Init` with a sound card rate of 48 kHz. -/
def init
    (handle : AecHandle cores)
    (sampFreq : Int) : AecHandle cores × Option AecError :=
  if sampFreq ≠ 8000 ∧ sampFreq ≠ 16000 ∧
      sampFreq ≠ 32000 ∧ sampFreq ≠ 48000 then
    (handle, some .badParameterError)
  else
    ({ core := cores.aecInit handle.core sampFreq
       initFlag := true
       sampFreq := sampFreq }, none)

/-- `WebRtcAec_GetBufferFarendError` for a far end that is not null. -/
def getBufferFarendError
    (handle : AecHandle cores)
    (nrOfSamples : Nat) : Option AecError :=
  if !handle.initFlag then
    some .uninitializedError
  else if nrOfSamples ≠ 80 ∧ nrOfSamples ≠ 160 then
    some .badParameterError
  else
    none

/-- `WebRtcAec_BufferFarend` -/
def bufferFarend
    (handle : AecHandle cores)
    (farend : List cores.FloatSample) : AecHandle cores :=
  match handle.getBufferFarendError farend.length with
  | some _ => handle
  | none =>
      { handle with core := cores.aecBufferFarend handle.core farend }

/--
`WebRtcAec_Process`.  The extended filter is off, so what `ProcessNormal`
returns replaces the warning about the delay.
-/
def process
    (handle : AecHandle cores)
    (samples : cores.Samples)
    (channel nrOfSamples : Nat)
    (msInSndCardBuf skew : Int) :
    AecHandle cores × cores.Samples × Option AecError :=
  if !handle.initFlag then
    (handle, samples, some .uninitializedError)
  else if nrOfSamples ≠ 80 ∧ nrOfSamples ≠ 160 then
    (handle, samples, some .badParameterError)
  else
    let ran :=
      cores.aecProcess handle.core samples channel
        (max 0 msInSndCardBuf) skew
    ({ handle with core := ran.1 }, ran.2.1,
      if ran.2.2 then some .badParameterWarning else none)

/-- `WebRtcAec_set_config` for values that are all in range. -/
def setConfig
    (handle : AecHandle cores)
    (config : AecConfig) : AecHandle cores × Option AecError :=
  if !handle.initFlag then
    (handle, some .uninitializedError)
  else
    ({ handle with core := cores.aecSetConfig handle.core config }, none)

end AecHandle

/--
`EchoCancellationImpl`.  `passedDelays` is a record for the proofs: the delay of
every `WebRtcAec_Process` call so far.
-/
structure EchoCancellation (cores : Cores) extends
    ProcessingComponent (AecHandle cores) cores.FloatSample where
  driftCompensationEnabled : Bool
  metricsEnabled : Bool
  suppressionLevel : SuppressionLevel
  streamDriftSamples : Int
  wasStreamDriftSet : Bool
  streamHasEcho : Bool
  delayLoggingEnabled : Bool
  passedDelays : List Int

namespace EchoCancellation

variable {cores : Cores}

/-- `EchoCancellationImpl(..)` -/
def create : EchoCancellation cores where
  toProcessingComponent := .create
  driftCompensationEnabled := false
  metricsEnabled := false
  suppressionLevel := .kModerateSuppression
  streamDriftSamples := 0
  wasStreamDriftSet := false
  streamHasEcho := false
  delayLoggingEnabled := false
  passedDelays := []

/-- `MapError` -/
def mapError : AecError → Error
  | .unsupportedFunctionError => .kUnsupportedFunctionError
  | .badParameterError => .kBadParameterError
  | .badParameterWarning => .kBadStreamParameterWarning
  | .unspecifiedError => .kUnspecifiedError
  | .uninitializedError => .kUnspecifiedError
  | .nullPointerError => .kUnspecifiedError

/-- `num_handles_required` -/
def numHandlesRequired (formats : StreamFormats) : Nat :=
  formats.numOutputChannels * formats.numReverseChannels

/-- The `AecConfig` of the current settings. -/
def config (aec : EchoCancellation cores) : AecConfig where
  nlpMode := aec.suppressionLevel
  skewMode := aec.driftCompensationEnabled
  metricsMode := aec.metricsEnabled
  delayLogging := aec.delayLoggingEnabled

/-- `ConfigureHandle`; a null handle is followed to its canceller. -/
def configureHandle
    (aec : EchoCancellation cores) :
    Stage (Option (AecHandle cores)) Exit
  | none => (none, some .abort)
  | some handle =>
      let ran := handle.setConfig aec.config
      (some ran.1, ran.2.map (fun _ => .error .kUnspecifiedError))

/-- The virtual functions, for `created` handles that can be allocated. -/
def methods
    (formats : StreamFormats)
    (created : Nat → Bool)
    (aec : EchoCancellation cores) :
    HandleMethods (AecHandle cores) where
  numHandlesRequired := numHandlesRequired formats
  createHandle := fun index =>
    if created index then some .create else none
  initializeHandle := fun handle =>
    let ran := handle.init formats.fwdProcRate.hz
    (ran.1, ran.2.isSome)
  configureHandle := aec.configureHandle

/-- `Configure` -/
def configure
    (formats : StreamFormats) :
    Stage (EchoCancellation cores) Exit :=
  fun aec =>
    let ran :=
      aec.toProcessingComponent.configure
        (aec.methods formats (fun _ => true))
    ({ aec with toProcessingComponent := ran.1 }, ran.2)

/-- `Initialize` -/
def initializeComponent
    (formats : StreamFormats)
    (created : Nat → Bool) :
    Stage (EchoCancellation cores) Exit :=
  fun aec =>
    let ran :=
      aec.toProcessingComponent.initializeWithQueue
        (aec.methods formats created)
    ({ aec with toProcessingComponent := ran.1 }, ran.2)

/-- `Enable` -/
def enable
    (formats : StreamFormats)
    (created : Nat → Bool)
    (aecmEnabled : Bool)
    (enable : Bool) : Stage (EchoCancellation cores) Exit :=
  fun aec =>
    if enable && aecmEnabled then
      (aec, some (.error .kBadParameterError))
    else
      enableComponent
        (fun component => component.enabled)
        (fun flag component => { component with enabled := flag })
        (initializeComponent formats created) enable aec

/-- The packed frame of `ProcessRenderAudio`. -/
def packRender
    (formats : StreamFormats)
    (audio : AudioBuffer cores) : List cores.FloatSample :=
  (List.replicate formats.numOutputChannels
    ((List.range audio.numChannels).map
      (cores.lowBandF audio.samples))).flatten.flatten

/-- One delivery of `ReadQueuedRenderData`. -/
def bufferFarend
    (piece : List cores.FloatSample) :
    Stage (Option (AecHandle cores)) Exit
  | none => (none, some .abort)
  | some handle => (some (handle.bufferFarend piece), none)

/-- `ReadQueuedRenderData` -/
def readQueuedRenderData
    (formats : StreamFormats) :
    Stage (EchoCancellation cores) Exit :=
  fun aec =>
    let ran :=
      aec.toProcessingComponent.readQueuedRenderData bufferFarend
        (numHandlesRequired formats)
    ({ aec with toProcessingComponent := ran.1 }, ran.2)

/--
`ProcessRenderAudio`.  `handle_index` is never advanced, so every turn of the
loop asks handle 0.
-/
def processRenderAudio
    (formats : StreamFormats)
    (audio : AudioBuffer cores) :
    Stage (EchoCancellation cores) Exit :=
  fun aec =>
    if !aec.enabled then
      (aec, none)
    else
      match aec.handles.head?.join with
      | none => (aec, some .abort)
      | some handle =>
          match handle.getBufferFarendError audio.numFramesPerBand with
          | some err => (aec, some (.error (mapError err)))
          | none =>
              let ran :=
                ProcessingComponent.insertRenderData cores.ndebug
                  (ProcessingComponent.readQueuedRenderData bufferFarend
                    (numHandlesRequired formats))
                  (packRender formats audio) aec.toProcessingComponent
              ({ aec with toProcessingComponent := ran.1 }, ran.2)

/-- What the capture loop changes besides the handles. -/
structure CaptureLoop (cores : Cores) where
  samples : cores.Samples
  streamHasEcho : Bool
  passedDelays : List Int

/-- One turn of the loop in `ProcessCaptureAudio`. -/
def processSlot
    (formats : StreamFormats)
    (nrOfSamples : Nat)
    (streamDelayMs streamDriftSamples : Int)
    (handleIndex : Nat) :
    Stage (Option (AecHandle cores) × CaptureLoop cores) Exit :=
  fun visit =>
    match visit.1 with
    | none => (visit, some .abort)
    | some handle =>
        let shared := visit.2
        let ran :=
          handle.process shared.samples
            (handleIndex / formats.numReverseChannels) nrOfSamples
            streamDelayMs streamDriftSamples
        let processed : CaptureLoop cores :=
          { shared with
            samples := ran.2.1
            passedDelays := shared.passedDelays ++ [streamDelayMs] }
        let code := ran.2.2.map mapError
        -- a warning does not end the loop
        if code ≠ none ∧ code ≠ some .kBadStreamParameterWarning then
          ((some ran.1, processed), code.map .error)
        else if !ran.1.initFlag then
          ((some ran.1, processed), some (.error .kUnspecifiedError))
        else
          ((some ran.1,
            { processed with
              streamHasEcho :=
                shared.streamHasEcho || cores.aecEchoState ran.1.core }),
            none)

/-- `ProcessCaptureAudio` -/
def processCaptureAudio
    (formats : StreamFormats)
    (streamDelayMs : Int)
    (wasStreamDelaySet : Bool) :
    Stage (EchoCancellation cores × AudioBuffer cores) Exit :=
  fun state =>
    let aec := state.1
    let audio := state.2
    if !aec.enabled then
      (state, none)
    else if !wasStreamDelaySet then
      (state, some (.error .kStreamParameterNotSetError))
    else if aec.driftCompensationEnabled && !aec.wasStreamDriftSet then
      (state, some (.error .kStreamParameterNotSetError))
    else if !cores.ndebug &&
        audio.numChannels != formats.numProcChannels then
      (state, some .abort)
    else
      let ran :=
        forSlots
          (processSlot formats audio.numFramesPerBand streamDelayMs
            aec.streamDriftSamples)
          .abort 0 (audio.numChannels * formats.numReverseChannels)
          (aec.handles,
            { samples := audio.samples
              streamHasEcho := false
              passedDelays := aec.passedDelays })
      let processed :=
        { aec with
          handles := ran.1.1
          streamHasEcho := ran.1.2.streamHasEcho
          passedDelays := ran.1.2.passedDelays
          wasStreamDriftSet :=
            aec.wasStreamDriftSet && ran.2.isSome }
      ((processed, { audio with samples := ran.1.2.samples }), ran.2)

/-- `set_suppression_level` -/
def setSuppressionLevel
    (formats : StreamFormats)
    (level : SuppressionLevel) :
    Stage (EchoCancellation cores) Exit :=
  fun aec => configure formats { aec with suppressionLevel := level }

/-- `enable_drift_compensation` -/
def enableDriftCompensation
    (formats : StreamFormats)
    (enable : Bool) : Stage (EchoCancellation cores) Exit :=
  fun aec =>
    configure formats { aec with driftCompensationEnabled := enable }

/-- `set_stream_drift_samples` -/
def setStreamDriftSamples
    (drift : Int) : Stage (EchoCancellation cores) Exit :=
  fun aec =>
    ({ aec with
        wasStreamDriftSet := true
        streamDriftSamples := drift }, none)

/-- `enable_metrics` -/
def enableMetrics
    (formats : StreamFormats)
    (enable : Bool) : Stage (EchoCancellation cores) Exit :=
  fun aec => configure formats { aec with metricsEnabled := enable }

/-- `enable_delay_logging` -/
def enableDelayLogging
    (formats : StreamFormats)
    (enable : Bool) : Stage (EchoCancellation cores) Exit :=
  fun aec => configure formats { aec with delayLoggingEnabled := enable }

end EchoCancellation

end ApmSdk.AudioProcessing
