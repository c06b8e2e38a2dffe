import ApmSdk.AudioBuffer
import ApmSdk.ComponentSetup

namespace ApmSdk.AudioProcessing

/-!
# The gain control

`GainControlImpl` over the checks of `analog_agc.c`.  `WebRtcAgc_Create` does
not look at what `malloc` returns, so `CreateHandle` never gives a null handle.
-/

/-- A `LegacyAgc` instance: its flag and rate, and the gain control behind them. -/
structure AgcHandle (cores : Cores) where
  core : cores.AgcCore
  initFlag : Bool
  fs : Int

namespace AgcHandle

variable {cores : Cores}

/-- What the instance is set up for. -/
def setup (handle : AgcHandle cores) : HandleSetup :=
  ⟨handle.initFlag, handle.fs⟩

/-- `WebRtcAgc_Create` -/
def create : AgcHandle cores where
  core := cores.newAgcCore
  initFlag := false
  fs := 0

/-- The limits that `WebRtcAgc_Init` works with, which are fixed in one mode. -/
def levelRange
    (minLevel maxLevel : Int)
    (agcMode : GainMode) : Int × Int :=
  if agcMode = .kAdaptiveDigital then (0, 255) else (minLevel, maxLevel)

/--
`WebRtcAgc_Init` for limits up to 65535.  The range is checked last, when
everything has been initialised; the flag is set when it is empty.
-/
def init
    (handle : AgcHandle cores)
    (minLevel maxLevel : Int)
    (agcMode : GainMode)
    (fs : Int) : AgcHandle cores × Bool :=
  let range := levelRange minLevel maxLevel agcMode
  ({ core := cores.agcInit handle.core range.1 range.2 agcMode fs
     initFlag := true
     fs := fs }, range.2 ≤ range.1)

/-- The check of the frame size that the processing functions begin with. -/
def acceptsFrame
    (handle : AgcHandle cores)
    (samples : Nat) : Bool :=
  if handle.fs = 8000 then
    samples == 80
  else if handle.fs = 16000 ∨ handle.fs = 32000 ∨ handle.fs = 48000 then
    samples == 160
  else
    false

/-- The same check in `WebRtcAgc_AddMic`, which takes any other rate as wide. -/
def acceptsMicFrame
    (handle : AgcHandle cores)
    (samples : Nat) : Bool :=
  if handle.fs = 8000 then samples == 80 else samples == 160

/-- `WebRtcAgc_AddFarend` -/
def addFarend
    (handle : AgcHandle cores)
    (farend : List Int16) : AgcHandle cores :=
  if handle.acceptsFrame farend.length then
    { handle with core := cores.agcAddFarend handle.core farend }
  else
    handle

/-- `WebRtcAgc_set_config` for values that are all in range. -/
def setConfig
    (handle : AgcHandle cores)
    (config : AgcConfig) : AgcHandle cores × Bool :=
  if !handle.initFlag then
    (handle, true)
  else
    ({ handle with core := cores.agcSetConfig handle.core config }, false)

end AgcHandle

/--
The settings of `GainControlImpl`.  The setters let no other values through, and
within these bounds the library accepts every `WebRtcAgcConfig`.
-/
structure GainSettings where
  mode : GainMode
  minimumCaptureLevel : Int
  maximumCaptureLevel : Int
  limiterEnabled : Bool
  targetLevelDbfs : Int
  compressionGainDb : Int
  levelsInRange :
    0 ≤ minimumCaptureLevel ∧
      minimumCaptureLevel ≤ maximumCaptureLevel ∧
      maximumCaptureLevel ≤ 65535
  targetInRange : 0 ≤ targetLevelDbfs ∧ targetLevelDbfs ≤ 31
  compressionInRange : 0 ≤ compressionGainDb ∧ compressionGainDb ≤ 90
  deriving Repr, DecidableEq

namespace GainSettings

/-- The defaults of `GainControlImpl(..)`. -/
def default : GainSettings where
  mode := .kAdaptiveAnalog
  minimumCaptureLevel := 0
  maximumCaptureLevel := 255
  limiterEnabled := true
  targetLevelDbfs := 3
  compressionGainDb := 9
  levelsInRange := by decide
  targetInRange := by decide
  compressionInRange := by decide

/--
Whether `WebRtcAgc_Init` takes these settings: `set_analog_level_limits` lets an
empty range through, which the library refuses where it uses the range.
-/
def takenByInit (settings : GainSettings) : Bool :=
  let range :=
    AgcHandle.levelRange settings.minimumCaptureLevel
      settings.maximumCaptureLevel settings.mode
  range.1 < range.2

/-- The `WebRtcAgcConfig` of these settings. -/
def config (settings : GainSettings) : AgcConfig where
  targetLevelDbfs := settings.targetLevelDbfs
  compressionGaindB := settings.compressionGainDb
  limiterEnable := settings.limiterEnabled

end GainSettings

/-- `GainControlImpl` -/
structure GainControl (cores : Cores) extends
    ProcessingComponent (AgcHandle cores) Int16 where
  settings : GainSettings
  captureLevels : List Int
  analogCaptureLevel : Int
  wasAnalogLevelSet : Bool
  streamIsSaturated : Bool

namespace GainControl

variable {cores : Cores}

/-- `GainControlImpl(..)` -/
def create : GainControl cores where
  toProcessingComponent := .create
  settings := .default
  captureLevels := []
  analogCaptureLevel := 0
  wasAnalogLevelSet := false
  streamIsSaturated := false

/-- `num_handles_required` -/
def numHandlesRequired (formats : StreamFormats) : Nat :=
  formats.numProcChannels

/--
`ConfigureHandle`.  The library refuses a null handle, and `GetHandleError`
asserts that there is none.
-/
def configureHandle
    (agc : GainControl cores) :
    Stage (Option (AgcHandle cores)) Exit
  | none =>
      (none,
        some (if cores.ndebug then .error .kUnspecifiedError else .abort))
  | some handle =>
      let ran := handle.setConfig agc.settings.config
      (some ran.1,
        if ran.2 then some (.error .kUnspecifiedError) else none)

/-- The virtual functions. -/
def methods
    (formats : StreamFormats)
    (agc : GainControl cores) :
    HandleMethods (AgcHandle cores) where
  numHandlesRequired := numHandlesRequired formats
  createHandle := fun _ => some .create
  initializeHandle := fun handle =>
    handle.init agc.settings.minimumCaptureLevel
      agc.settings.maximumCaptureLevel agc.settings.mode
      formats.fwdProcRate.hz
  configureHandle := agc.configureHandle

/-- `Configure` -/
def configure
    (formats : StreamFormats) :
    Stage (GainControl cores) Exit :=
  fun agc =>
    let ran := agc.toProcessingComponent.configure (agc.methods formats)
    ({ agc with toProcessingComponent := ran.1 }, ran.2)

/-- `Initialize` -/
def initializeComponent
    (formats : StreamFormats) :
    Stage (GainControl cores) Exit :=
  fun agc =>
    match
      agc.toProcessingComponent.initializeWithQueue
        (agc.methods formats) with
    | (failed, some exit) =>
        ({ agc with toProcessingComponent := failed }, some exit)
    | (ready, none) =>
        if !ready.enabled then
          ({ agc with toProcessingComponent := ready }, none)
        else
          ({ agc with
              toProcessingComponent := ready
              captureLevels :=
                List.replicate ready.numHandles agc.analogCaptureLevel },
            none)

/-- `Enable` -/
def enable
    (formats : StreamFormats)
    (enable : Bool) : Stage (GainControl cores) Exit :=
  enableComponent
    (fun component => component.enabled)
    (fun flag component => { component with enabled := flag })
    (initializeComponent formats) enable

/-- The packed frame of `ProcessRenderAudio`. -/
def packRender
    (audio : AudioBuffer cores)
    (numHandles : Nat) : List Int16 :=
  (List.replicate numHandles
    (cores.mixedLowPassData audio.samples)).flatten

/-- One delivery of `ReadQueuedRenderData`; a null handle is only refused. -/
def bufferFarend
    (piece : List Int16) :
    Stage (Option (AgcHandle cores)) Exit :=
  fun slot => (slot.map (fun handle => handle.addFarend piece), none)

/-- `ReadQueuedRenderData` -/
def readQueuedRenderData : Stage (GainControl cores) Exit :=
  fun agc =>
    let ran :=
      agc.toProcessingComponent.readQueuedRenderData bufferFarend
        agc.numHandles
    ({ agc with toProcessingComponent := ran.1 }, ran.2)

/-- What `GetHandleError` returns, which asserts that the handle is not null. -/
def getHandleError (slot : Option (AgcHandle cores)) : Exit :=
  if slot.isNone && !cores.ndebug then .abort else .error .kUnspecifiedError

/-- The check that `ProcessRenderAudio` makes of each handle. -/
def checkFarend
    (samples : Nat)
    (_ : Nat) : Stage (Option (AgcHandle cores) × Unit) Exit :=
  fun visit =>
    (visit,
      if visit.1.any (fun handle => handle.acceptsFrame samples) then
        none
      else
        some (getHandleError visit.1))

/-- `ProcessRenderAudio` -/
def processRenderAudio
    (audio : AudioBuffer cores) : Stage (GainControl cores) Exit :=
  fun agc =>
    if !agc.enabled then
      (agc, none)
    else
      match
        (forSlots (checkFarend audio.numFramesPerBand) .abort 0
          agc.numHandles (agc.handles, ())).2 with
      | some exit => (agc, some exit)
      | none =>
          let ran :=
            ProcessingComponent.insertRenderData cores.ndebug
              (ProcessingComponent.readQueuedRenderData bufferFarend
                agc.numHandles)
              (packRender audio agc.numHandles) agc.toProcessingComponent
          ({ agc with toProcessingComponent := ran.1 }, ran.2)

/-- What the capture loops change besides the handles. -/
structure CaptureLoop (cores : Cores) where
  samples : cores.Samples
  captureLevels : List Int
  streamIsSaturated : Bool

/-- One turn of the loop in `AnalyzeCaptureAudio` for an analog level. -/
def addMicSlot
    (nrOfSamples : Nat)
    (index : Nat) :
    Stage (Option (AgcHandle cores) × CaptureLoop cores) Exit :=
  fun visit =>
    match visit.1 with
    | none => (visit, some .abort)
    | some handle =>
        if !handle.acceptsMicFrame nrOfSamples then
          (visit, some (.error .kUnspecifiedError))
        else
          let ran :=
            cores.agcAddMic handle.core visit.2.samples index
          ((some { handle with core := ran.1 },
            { visit.2 with samples := ran.2 }), none)

/--
One turn of the loop in `AnalyzeCaptureAudio` for a digital level.  The level
comes out of `WebRtcAgc_VirtualMic` before it calls `WebRtcAgc_AddMic`.
-/
def virtualMicSlot
    (nrOfSamples : Nat)
    (analogCaptureLevel : Int)
    (index : Nat) :
    Stage (Option (AgcHandle cores) × CaptureLoop cores) Exit :=
  fun visit =>
    match visit.1 with
    | none => (visit, some .abort)
    | some handle =>
        let ran :=
          cores.agcVirtualMic handle.core visit.2.samples index
            analogCaptureLevel
        ((some { handle with core := ran.1 },
          { visit.2 with
            samples := ran.2.1
            captureLevels := visit.2.captureLevels.set index ran.2.2 }),
          if handle.acceptsMicFrame nrOfSamples then
            none
          else
            some (.error .kUnspecifiedError))

/-- One turn of the loop in `ProcessCaptureAudio`. -/
def processSlot
    (nrOfSamples : Nat)
    (streamHasEcho : Bool)
    (index : Nat) :
    Stage (Option (AgcHandle cores) × CaptureLoop cores) Exit :=
  fun visit =>
    match visit.1 with
    | none => (visit, some (@getHandleError cores none))
    | some handle =>
        if !handle.acceptsFrame nrOfSamples then
          (visit, some (.error .kUnspecifiedError))
        else
          let ran :=
            cores.agcProcess handle.core visit.2.samples index
              (visit.2.captureLevels.getD index 0) streamHasEcho
          match ran.2.2 with
          | none =>
              ((some { handle with core := ran.1 },
                { visit.2 with samples := ran.2.1 }),
                some (.error .kUnspecifiedError))
          | some result =>
              ((some { handle with core := ran.1 },
                { samples := ran.2.1
                  captureLevels :=
                    visit.2.captureLevels.set index result.outMicLevel
                  streamIsSaturated :=
                    visit.2.streamIsSaturated ||
                      result.saturationWarning }),
                none)

/-- A capture loop over the handles, with what it leaves in the component. -/
def captureLoop
    (slot :
      Nat → Stage (Option (AgcHandle cores) × CaptureLoop cores) Exit) :
    Stage (GainControl cores × AudioBuffer cores) Exit :=
  fun state =>
    let agc := state.1
    let ran :=
      forSlots slot .abort 0 agc.numHandles
        (agc.handles,
          { samples := state.2.samples
            captureLevels := agc.captureLevels
            streamIsSaturated := agc.streamIsSaturated })
    (({ agc with
        handles := ran.1.1
        captureLevels := ran.1.2.captureLevels
        streamIsSaturated := ran.1.2.streamIsSaturated },
      { state.2 with samples := ran.1.2.samples }), ran.2)

/-- `AnalyzeCaptureAudio` -/
def analyzeCaptureAudio :
    Stage (GainControl cores × AudioBuffer cores) Exit :=
  fun state =>
    let agc := state.1
    let audio := state.2
    if !agc.enabled then
      (state, none)
    else if !cores.ndebug && audio.numChannels != agc.numHandles then
      (state, some .abort)
    else
      match agc.settings.mode with
      | .kAdaptiveAnalog =>
          captureLoop (addMicSlot audio.numFramesPerBand)
            ({ agc with
                captureLevels :=
                  List.replicate agc.numHandles agc.analogCaptureLevel },
              audio)
      | .kAdaptiveDigital =>
          captureLoop
            (virtualMicSlot audio.numFramesPerBand agc.analogCaptureLevel)
            state
      | .kFixedDigital => (state, none)

/-- The analog level after a frame: the average over the handles. -/
def averageLevel (agc : GainControl cores) : Int :=
  (agc.captureLevels.take agc.numHandles).sum.tdiv agc.numHandles

/-- `ProcessCaptureAudio` -/
def processCaptureAudio
    (streamHasEcho : Bool) :
    Stage (GainControl cores × AudioBuffer cores) Exit :=
  fun state =>
    let agc := state.1
    let audio := state.2
    if !agc.enabled then
      (state, none)
    else if agc.settings.mode = .kAdaptiveAnalog ∧
        agc.wasAnalogLevelSet = false then
      (state, some (.error .kStreamParameterNotSetError))
    else if !cores.ndebug && audio.numChannels != agc.numHandles then
      (state, some .abort)
    else
      match
        captureLoop (processSlot audio.numFramesPerBand streamHasEcho)
          ({ agc with streamIsSaturated := false }, audio) with
      | (failed, some exit) => (failed, some exit)
      | ((processed, after), none) =>
          (({ processed with
              analogCaptureLevel :=
                if processed.settings.mode = .kAdaptiveAnalog then
                  processed.averageLevel
                else
                  processed.analogCaptureLevel
              wasAnalogLevelSet := false }, after), none)

/-- `set_stream_analog_level` -/
def setStreamAnalogLevel
    (level : Int) : Stage (GainControl cores) Exit :=
  fun agc =>
    let told := { agc with wasAnalogLevelSet := true }
    if level < agc.settings.minimumCaptureLevel ∨
        agc.settings.maximumCaptureLevel < level then
      (told, some (.error .kBadParameterError))
    else
      ({ told with analogCaptureLevel := level }, none)

/-- `set_mode` -/
def setMode
    (formats : StreamFormats)
    (mode : GainMode) : Stage (GainControl cores) Exit :=
  fun agc =>
    initializeComponent formats
      { agc with settings := { agc.settings with mode := mode } }

/-- `set_analog_level_limits` -/
def setAnalogLevelLimits
    (formats : StreamFormats)
    (minimum maximum : Int) : Stage (GainControl cores) Exit :=
  fun agc =>
    if legal : 0 ≤ minimum ∧ minimum ≤ maximum ∧ maximum ≤ 65535 then
      initializeComponent formats
        { agc with
          settings :=
            { agc.settings with
              minimumCaptureLevel := minimum
              maximumCaptureLevel := maximum
              levelsInRange := legal } }
    else
      (agc, some (.error .kBadParameterError))

/-- `set_target_level_dbfs` -/
def setTargetLevelDbfs
    (formats : StreamFormats)
    (level : Int) : Stage (GainControl cores) Exit :=
  fun agc =>
    if legal : 0 ≤ level ∧ level ≤ 31 then
      configure formats
        { agc with
          settings :=
            { agc.settings with
              targetLevelDbfs := level
              targetInRange := legal } }
    else
      (agc, some (.error .kBadParameterError))

/-- `set_compression_gain_db` -/
def setCompressionGainDb
    (formats : StreamFormats)
    (gain : Int) : Stage (GainControl cores) Exit :=
  fun agc =>
    if legal : 0 ≤ gain ∧ gain ≤ 90 then
      configure formats
        { agc with
          settings :=
            { agc.settings with
              compressionGainDb := gain
              compressionInRange := legal } }
    else
      (agc, some (.error .kBadParameterError))

/-- `enable_limiter` -/
def enableLimiter
    (formats : StreamFormats)
    (enable : Bool) : Stage (GainControl cores) Exit :=
  fun agc =>
    configure formats
      { agc with
        settings := { agc.settings with limiterEnabled := enable } }

end GainControl

end ApmSdk.AudioProcessing
