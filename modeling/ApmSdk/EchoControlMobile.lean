import ApmSdk.EchoCancellation

namespace ApmSdk.AudioProcessing

/-!
# The mobile echo canceller

`EchoControlMobileImpl` over the checks of `echo_control_mobile.c`.
-/

/-- An `AecMobile` instance: its flag and rate, and the canceller behind them. -/
structure AecmHandle (cores : Cores) where
  core : cores.AecmCore
  initFlag : Bool
  sampFreq : Int

namespace AecmHandle

variable {cores : Cores}

/-- What the instance is set up for. -/
def setup (handle : AecmHandle cores) : HandleSetup :=
  ⟨handle.initFlag, handle.sampFreq⟩

/-- `WebRtcAecm_Create`, when it succeeds. -/
def create : AecmHandle cores where
  core := cores.newAecmCore
  initFlag := false
  sampFreq := 0

/-- `WebRtcAecm_Init` -/
def init
    (handle : AecmHandle cores)
    (sampFreq : Int) : AecmHandle cores × Option AecError :=
  if sampFreq ≠ 8000 ∧ sampFreq ≠ 16000 then
    (handle, some .badParameterError)
  else
    ({ core := cores.aecmInit handle.core sampFreq
       initFlag := true
       sampFreq := sampFreq }, none)

/-- `WebRtcAecm_InitEchoPath` for a path of the right size. -/
def initEchoPath
    (handle : AecmHandle cores)
    (echoPath : cores.EchoPath) : AecmHandle cores × Option AecError :=
  if !handle.initFlag then
    (handle, some .uninitializedError)
  else
    ({ handle with
        core := cores.aecmInitEchoPath handle.core echoPath }, none)

/-- `WebRtcAecm_GetBufferFarendError` for a far end that is not null. -/
def getBufferFarendError
    (handle : AecmHandle cores)
    (nrOfSamples : Nat) : Option AecError :=
  if !handle.initFlag then
    some .uninitializedError
  else if nrOfSamples ≠ 80 ∧ nrOfSamples ≠ 160 then
    some .badParameterError
  else
    none

/-- `WebRtcAecm_BufferFarend` -/
def bufferFarend
    (handle : AecmHandle cores)
    (farend : List Int16) : AecmHandle cores :=
  match handle.getBufferFarendError farend.length with
  | some _ => handle
  | none =>
      { handle with core := cores.aecmBufferFarend handle.core farend }

/-- `WebRtcAecm_Process` -/
def process
    (handle : AecmHandle cores)
    (samples : cores.Samples)
    (channel : Nat)
    (referenceCopied : Bool)
    (nrOfSamples : Nat)
    (msInSndCardBuf : Int) :
    AecmHandle cores × cores.Samples × Option AecError :=
  if !handle.initFlag then
    (handle, samples, some .uninitializedError)
  else if nrOfSamples ≠ 80 ∧ nrOfSamples ≠ 160 then
    (handle, samples, some .badParameterError)
  else
    let ran :=
      cores.aecmProcess handle.core samples channel referenceCopied
        (min 500 (max 0 msInSndCardBuf))
    ({ handle with core := ran.1 }, ran.2.1,
      if !ran.2.2 then
        some .unspecifiedError
      else if msInSndCardBuf < 0 ∨ 500 < msInSndCardBuf then
        some .badParameterWarning
      else
        none)

/-- `WebRtcAecm_set_config` for values that are all in range. -/
def setConfig
    (handle : AecmHandle cores)
    (config : AecmConfig) : AecmHandle cores × Option AecError :=
  if !handle.initFlag then
    (handle, some .uninitializedError)
  else
    ({ handle with core := cores.aecmSetConfig handle.core config }, none)

end AecmHandle

/--
`EchoControlMobileImpl`.  `passedDelays` is a record for the proofs: the delay
of every `WebRtcAecm_Process` call so far.
-/
structure EchoControlMobile (cores : Cores) extends
    ProcessingComponent (AecmHandle cores) Int16 where
  routingMode : RoutingMode
  comfortNoiseEnabled : Bool
  externalEchoPath : Option cores.EchoPath
  passedDelays : List Int

namespace EchoControlMobile

variable {cores : Cores}

/-- `EchoControlMobileImpl(..)` -/
def create : EchoControlMobile cores where
  toProcessingComponent := .create
  routingMode := .kSpeakerphone
  comfortNoiseEnabled := true
  externalEchoPath := none
  passedDelays := []

/-- `MapError` -/
def mapError : AecError → Error
  | .unsupportedFunctionError => .kUnsupportedFunctionError
  | .nullPointerError => .kNullPointerError
  | .badParameterError => .kBadParameterError
  | .badParameterWarning => .kBadStreamParameterWarning
  | .unspecifiedError => .kUnspecifiedError
  | .uninitializedError => .kUnspecifiedError

/-- `num_handles_required` -/
def numHandlesRequired (formats : StreamFormats) : Nat :=
  formats.numOutputChannels * formats.numReverseChannels

/-- The `AecmConfig` of the current settings. -/
def config (aecm : EchoControlMobile cores) : AecmConfig where
  cngMode := aecm.comfortNoiseEnabled
  echoMode := aecm.routingMode

/--
`ConfigureHandle`.  The library refuses a null handle, and `GetHandleError`
asserts that there is none.
-/
def configureHandle
    (aecm : EchoControlMobile cores) :
    Stage (Option (AecmHandle cores)) Exit
  | none =>
      (none,
        some (if cores.ndebug then .error .kUnspecifiedError else .abort))
  | some handle =>
      let ran := handle.setConfig aecm.config
      (some ran.1, ran.2.map (fun _ => .error .kUnspecifiedError))

/-- `InitializeHandle` -/
def initializeHandle
    (formats : StreamFormats)
    (aecm : EchoControlMobile cores)
    (handle : AecmHandle cores) : AecmHandle cores × Bool :=
  match handle.init formats.fwdProcRate.hz with
  | (refused, some _) => (refused, true)
  | (initialized, none) =>
      match aecm.externalEchoPath with
      | none => (initialized, false)
      | some echoPath =>
          let ran := initialized.initEchoPath echoPath
          (ran.1, ran.2.isSome)

/-- The virtual functions, for `created` handles that can be allocated. -/
def methods
    (formats : StreamFormats)
    (created : Nat → Bool)
    (aecm : EchoControlMobile cores) :
    HandleMethods (AecmHandle cores) where
  numHandlesRequired := numHandlesRequired formats
  createHandle := fun index =>
    if created index then some .create else none
  initializeHandle := initializeHandle formats aecm
  configureHandle := aecm.configureHandle

/-- `Configure` -/
def configure
    (formats : StreamFormats) :
    Stage (EchoControlMobile cores) Exit :=
  fun aecm =>
    let ran :=
      aecm.toProcessingComponent.configure
        (aecm.methods formats (fun _ => true))
    ({ aecm with toProcessingComponent := ran.1 }, ran.2)

/-- `Initialize` -/
def initializeComponent
    (formats : StreamFormats)
    (created : Nat → Bool) :
    Stage (EchoControlMobile cores) Exit :=
  fun aecm =>
    if !aecm.enabled then
      (aecm, none)
    else if NativeRate.kSampleRate16kHz.hz < formats.fwdProcRate.hz then
      (aecm, some (.error .kBadSampleRateError))
    else
      let ran :=
        aecm.toProcessingComponent.initializeWithQueue
          (aecm.methods formats created)
      ({ aecm with toProcessingComponent := ran.1 }, ran.2)

/-- `Enable` -/
def enable
    (formats : StreamFormats)
    (created : Nat → Bool)
    (aecEnabled : Bool)
    (enable : Bool) : Stage (EchoControlMobile cores) Exit :=
  fun aecm =>
    if enable && aecEnabled then
      (aecm, some (.error .kBadParameterError))
    else
      enableComponent
        (fun component => component.enabled)
        (fun flag component => { component with enabled := flag })
        (initializeComponent formats created) enable aecm

/-- The packed frame of `ProcessRenderAudio`. -/
def packRender
    (formats : StreamFormats)
    (audio : AudioBuffer cores) : List Int16 :=
  (List.replicate formats.numOutputChannels
    ((List.range audio.numChannels).map
      (cores.lowBand audio.samples))).flatten.flatten

/-- One delivery of `ReadQueuedRenderData`; a null handle is only refused. -/
def bufferFarend
    (piece : List Int16) :
    Stage (Option (AecmHandle cores)) Exit :=
  fun slot => (slot.map (fun handle => handle.bufferFarend piece), none)

/-- `ReadQueuedRenderData` -/
def readQueuedRenderData
    (formats : StreamFormats) :
    Stage (EchoControlMobile cores) Exit :=
  fun aecm =>
    let ran :=
      aecm.toProcessingComponent.readQueuedRenderData bufferFarend
        (numHandlesRequired formats)
    ({ aecm with toProcessingComponent := ran.1 }, ran.2)

/-- The check that `ProcessRenderAudio` makes of each handle. -/
def checkFarend
    (nrOfSamples : Nat)
    (_ : Nat) : Stage (Option (AecmHandle cores) × Unit) Exit :=
  fun visit =>
    match visit.1 with
    | none => (visit, some (.error .kUnspecifiedError))
    | some handle =>
        (visit,
          (handle.getBufferFarendError nrOfSamples).map
            (fun err => .error (mapError err)))

/-- `ProcessRenderAudio` -/
def processRenderAudio
    (formats : StreamFormats)
    (audio : AudioBuffer cores) :
    Stage (EchoControlMobile cores) Exit :=
  fun aecm =>
    if !aecm.enabled then
      (aecm, none)
    else
      match
        (forSlots (checkFarend audio.numFramesPerBand) .abort 0
          (formats.numOutputChannels * audio.numChannels)
          (aecm.handles, ())).2 with
      | some exit => (aecm, some exit)
      | none =>
          let ran :=
            ProcessingComponent.insertRenderData cores.ndebug
              (ProcessingComponent.readQueuedRenderData bufferFarend
                (numHandlesRequired formats))
              (packRender formats audio) aecm.toProcessingComponent
          ({ aecm with toProcessingComponent := ran.1 }, ran.2)

/-- What the capture loop changes besides the handles. -/
structure CaptureLoop (cores : Cores) where
  samples : cores.Samples
  passedDelays : List Int

/-- One turn of the loop in `ProcessCaptureAudio`. -/
def processSlot
    (formats : StreamFormats)
    (referenceCopied : Bool)
    (nrOfSamples : Nat)
    (streamDelayMs : Int)
    (handleIndex : Nat) :
    Stage (Option (AecmHandle cores) × CaptureLoop cores) Exit :=
  fun visit =>
    match visit.1 with
    | none => (visit, some (.error .kUnspecifiedError))
    | some handle =>
        let shared := visit.2
        let ran :=
          handle.process shared.samples
            (handleIndex / formats.numReverseChannels) referenceCopied
            nrOfSamples streamDelayMs
        ((some ran.1,
          { samples := ran.2.1
            passedDelays := shared.passedDelays ++ [streamDelayMs] }),
          ran.2.2.map (fun err => .error (mapError err)))

/-- `ProcessCaptureAudio` -/
def processCaptureAudio
    (formats : StreamFormats)
    (streamDelayMs : Int)
    (wasStreamDelaySet : Bool) :
    Stage (EchoControlMobile cores × AudioBuffer cores) Exit :=
  fun state =>
    let aecm := state.1
    let audio := state.2
    if !aecm.enabled then
      (state, none)
    else if !wasStreamDelaySet then
      (state, some (.error .kStreamParameterNotSetError))
    else if !cores.ndebug &&
        audio.numChannels != formats.numOutputChannels then
      (state, some .abort)
    else
      let ran :=
        forSlots
          (processSlot formats audio.referenceCopied
            audio.numFramesPerBand streamDelayMs)
          .abort 0 (audio.numChannels * formats.numReverseChannels)
          (aecm.handles,
            { samples := audio.samples
              passedDelays := aecm.passedDelays })
      (({ aecm with
          handles := ran.1.1
          passedDelays := ran.1.2.passedDelays },
        { audio with samples := ran.1.2.samples }), ran.2)

/-- `set_routing_mode` -/
def setRoutingMode
    (formats : StreamFormats)
    (mode : RoutingMode) : Stage (EchoControlMobile cores) Exit :=
  fun aecm => configure formats { aecm with routingMode := mode }

/-- `enable_comfort_noise` -/
def enableComfortNoise
    (formats : StreamFormats)
    (enable : Bool) : Stage (EchoControlMobile cores) Exit :=
  fun aecm =>
    configure formats { aecm with comfortNoiseEnabled := enable }

/--
`SetEchoPath` with a path that may be null, and whether its size is
`echo_path_size_bytes`.
-/
def setEchoPath
    (formats : StreamFormats)
    (created : Nat → Bool)
    (echoPath : Option cores.EchoPath)
    (sizeMatches : Bool) : Stage (EchoControlMobile cores) Exit :=
  fun aecm =>
    match echoPath with
    | none => (aecm, some (.error .kNullPointerError))
    | some path =>
        if !sizeMatches then
          (aecm, some (.error .kBadParameterError))
        else
          initializeComponent formats created
            { aecm with externalEchoPath := some path }

end EchoControlMobile

end ApmSdk.AudioProcessing
